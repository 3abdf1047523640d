import ApiContract.Number.Decimal
import ApiContract.Text.Hex
import ApiContract.Yaml.Token.Basic

/-!
The text of YAML scalars: plain ones, quoted ones and indented blocks.

In a scalar that runs over several lines, one line break stands for a space and further ones for
themselves; blanks around them do not count.
-/

namespace ApiContract.Yaml

/-- What line breaks inside a flowing scalar stand for. -/
def foldBreaks : List Char → List Char
  | ['\n'] => [' ']
  | '\n' :: more => more
  | breaks => breaks

structure Gap where
  /-- What they stand for. -/
  text : List Char
  multiline : Bool
  next : Cursor

def Cursor.gap (c : Cursor) : Gap :=
  let (run, next) := c.span fun d => isBlank d || isBreak d
  let breaks := run.filter isBreak
  if breaks = [] then ⟨run, false, next⟩ else ⟨foldBreaks breaks, true, next⟩

/-- What follows an escaped line break: blanks do not count, and line breaks are kept. -/
def Cursor.gapAfterBreak (c : Cursor) : Gap :=
  let (run, next) := c.span fun d => isBlank d || isBreak d
  ⟨run.filter isBreak, true, next⟩

def isFlowIndicator (c : Char) : Bool := c = ',' || c = '[' || c = ']' || c = '{' || c = '}'

/-- The characters of a plain scalar up to a blank or to an indicator that ends it. In a flow
collection a colon must not stand before another indicator. -/
def plainRun? (inFlow : Bool) : List Char → Option (List Char)
  | [] => some []
  | c :: rest =>
    if isBlank c || isBreak c then some []
    else if inFlow && c = ':' && rest.head?.any (fun d => isFlowIndicator d || d = '?') then none
    else if (c = ':' && atGap rest) || (inFlow && isFlowIndicator c) then some []
    else (plainRun? inFlow rest).map (c :: ·)

/-- Whether a tab stands in the indentation of a line after the given one. -/
def hasEarlyTab (minimum line : Nat) : Position → List Char → Bool
  | _, [] => false
  | p, c :: rest =>
    (c = '\t' && line < p.line && p.column < minimum) || hasEarlyTab minimum line (p.after c) rest

/-- Reads on in a plain scalar after a gap. The flag of the result says whether a line break was
passed after the last character. -/
def plainFrom? (inFlow : Bool) (minimum : Nat) :
    Nat → Gap → Option (List Char × Bool × Cursor)
  | 0, _ => none
  | fuel + 1, gap =>
    let c := gap.next
    if c.atDocumentMarker ∨ c.rest.head? = some '#' then some ([], gap.multiline, c)
    else
      (plainRun? inFlow c.rest).bind fun run =>
        if run = [] then some ([], gap.multiline, c)
        else
          let c := c.skip run.length
          let next := c.gap
          let blanks := c.rest.take (c.rest.length - next.next.rest.length)
          if hasEarlyTab minimum c.position.line c.position blanks then none
          else if blanks = [] ∨ (!inFlow ∧ next.next.column < minimum) then
            some (gap.text ++ run, next.multiline, next.next)
          else
            (plainFrom? inFlow minimum fuel next).map fun (more, rest) =>
              (gap.text ++ run ++ more, rest)

def plain? (inFlow : Bool) (minimum : Nat) (c : Cursor) : Option (List Char × Bool × Cursor) :=
  plainFrom? inFlow minimum (c.rest.length + 1) ⟨[], false, c⟩

def escapedChar? : Char → Option Char
  | '0' => some '\x00'
  | 'a' => some '\x07'
  | 'b' => some '\x08'
  | 't' => some '\t'
  | '\t' => some '\t'
  | 'n' => some '\n'
  | 'v' => some '\x0b'
  | 'f' => some '\x0c'
  | 'r' => some '\r'
  | 'e' => some '\x1b'
  | ' ' => some ' '
  | '"' => some '"'
  | '/' => some '/'
  | '\\' => some '\\'
  | 'N' => some '\u0085'
  | '_' => some '\u00a0'
  | 'L' => some '\u2028'
  | 'P' => some '\u2029'
  | _ => none

def codeLength? : Char → Option Nat
  | 'x' => some 2
  | 'u' => some 4
  | 'U' => some 8
  | _ => none

/-- The character that an escape stands for, and the length of the escape after the backslash. -/
def escape? : List Char → Option (Char × Nat)
  | [] => none
  | c :: rest =>
    match codeLength? c with
    | none => (escapedChar? c).map (·, 1)
    | some length =>
      if rest.length < length then none
      else
        (Text.hexNumber? (rest.take length)).bind fun n =>
          if n.isValidChar then some (Char.ofNat n, length + 1) else none

def quotedFrom? (isSingle : Bool) : Nat → Cursor → Option (List Char × Cursor)
  | 0, _ => none
  | fuel + 1, c =>
    let more (text : List Char) (next : Cursor) :=
      (quotedFrom? isSingle fuel next).map fun (rest, last) => (text ++ rest, last)
    if c.atDocumentMarker then none
    else
      match c.rest with
      | [] => none
      | d :: rest =>
        if isBlank d || isBreak d then more c.gap.text c.gap.next
        else if isSingle then
          if d = '\'' then
            if rest.head? = some '\'' then more ['\''] (c.skip 2) else some ([], c.skip 1)
          else more [d] (c.skip 1)
        else if d = '"' then some ([], c.skip 1)
        else if d = '\\' then
          if rest.head?.any isBreak then
            let gap := (c.skip 2).gapAfterBreak
            more gap.text gap.next
          else (escape? rest).bind fun (e, length) => more [e] (c.skip (length + 1))
        else more [d] (c.skip 1)

def quoted? (isSingle : Bool) (c : Cursor) : Option (List Char × Cursor) :=
  quotedFrom? isSingle (c.rest.length + 1) (c.skip 1)

inductive Chomping where
  | strip
  | clip
  | keep
deriving DecidableEq

def chomping? : Char → Option Chomping
  | '+' => some .keep
  | '-' => some .strip
  | _ => none

def increment? (c : Char) : Option Nat :=
  if '1' ≤ c ∧ c ≤ '9' then some (Decimal.digitValue c) else none

/-- The indicators after the mark of a block, in either order. Zero is no indentation. -/
def blockHeader (c : Cursor) : Chomping × Option Nat × Cursor :=
  match c.rest.head?.bind chomping? with
  | some chomping =>
    let c := c.skip 1
    match c.rest.head?.bind increment? with
    | some n => (chomping, some n, c.skip 1)
    | none => (chomping, none, c)
  | none =>
    match c.rest.head?.bind increment? with
    | some n =>
      let c := c.skip 1
      match c.rest.head?.bind chomping? with
      | some chomping => (chomping, some n, c.skip 1)
      | none => (.clip, some n, c)
    | none => (.clip, none, c)

/-- Passes empty lines and indentation. Without a given indentation all spaces count, and the
widest line tells it. -/
def blockBreaks? (indent : Option Nat) :
    Nat → Nat → Cursor → Option (List Char × Nat × Cursor)
  | 0, _, _ => none
  | fuel + 1, widest, c =>
    let spaces := (c.rest.takeWhile (· = ' ')).length
    let c := match indent with
      | some n => c.skip (min spaces (n - c.column))
      | none => c.skip spaces
    let widest := max widest c.column
    if indent.all (c.column < ·) ∧ c.rest.head? = some '\t' then none
    else
      match c.rest with
      | d :: _ =>
        if isBreak d then
          (blockBreaks? indent fuel widest (c.skip 1)).map fun (more, rest) => (d :: more, rest)
        else some ([], widest, c)
      | [] => some ([], widest, c)

/-- The part of a block that was read: its text, the break after its last line, the breaks after
that, and whether the last line began with a blank. -/
structure BlockText where
  text : List Char
  lastBreak : List Char
  breaks : List Char
  blank : Bool

/-- Adds a line. In a folded block a break between two lines that do not begin with a blank stands
for a space, or for nothing if more breaks follow it. -/
def BlockText.push (b : BlockText) (folded : Bool) (line lineBreak breaks : List Char) :
    BlockText :=
  let blank := line.head?.any isBlank
  let join :=
    if folded ∧ b.lastBreak = ['\n'] ∧ !b.blank ∧ !blank then
      if b.breaks = [] then [' '] else []
    else b.lastBreak
  ⟨b.text ++ join ++ b.breaks ++ line, lineBreak, breaks, blank⟩

def blockLines? (folded : Bool) (indent : Nat) :
    Nat → BlockText → Cursor → Option (BlockText × Cursor)
  | 0, _, _ => none
  | fuel + 1, block, c =>
    if c.column = indent ∧ c.rest ≠ [] then
      let (line, c) := c.span fun d => !isBreak d
      let lineBreak := c.rest.take 1
      let c := c.skip 1
      (blockBreaks? (some indent) (c.rest.length + 1) 0 c).bind fun (breaks, _, c) =>
        blockLines? folded indent fuel (block.push folded line lineBreak breaks) c
    else some (block, c)

def BlockText.chomp (b : BlockText) : Chomping → List Char
  | .strip => b.text
  | .clip => b.text ++ b.lastBreak
  | .keep => b.text ++ b.lastBreak ++ b.breaks

def block? (folded : Bool) (outer : Option Nat) (c : Cursor) : Option (List Char × Cursor) :=
  let (chomping, increment, c) := blockHeader (c.skip 1)
  c.finishLine?.bind fun c =>
    let given := increment.map (outer.getD 0 + ·)
    (blockBreaks? given (c.rest.length + 1) 0 c).bind fun (breaks, widest, c) =>
      let least := max 1 (outer.elim 0 (· + 1))
      let indent := given.getD (max widest least)
      (blockLines? folded indent (c.rest.length + 1) ⟨[], [], breaks, false⟩ c).map
        fun (block, c) => (block.chomp chomping, c)

end ApiContract.Yaml

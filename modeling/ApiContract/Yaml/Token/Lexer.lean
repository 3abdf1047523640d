import ApiContract.Yaml.Token.Tag

/-!
From YAML text to tokens.

A key is known as such only at the colon after it, so the place where one may have begun is
remembered, and the token that announces it is put there afterwards. In the block context the
columns of open collections form a stack; a line that begins left of them closes them.
-/

namespace ApiContract.Yaml

/-- A place where a key may have begun. -/
structure KeyMark where
  start : Position
  /-- How many tokens precede it. -/
  number : Nat
  /-- Whether nothing but a key can stand there. -/
  required : Bool

structure Lexer where
  input : Cursor
  tokens : Array Token
  /-- Columns of the open block collections, the innermost first. -/
  columns : List Nat
  /-- Where a key may have begun in the innermost collection. -/
  pending : Option KeyMark
  /-- The same for the collections around the open flow collections. -/
  outer : List (Option KeyMark)
  /-- Whether a key may begin at the next token. -/
  keyAllowed : Bool

namespace Lexer

def ofText (cs : List Char) : Lexer :=
  let column := if cs.head? = some '\ufeff' then 1 else 0
  ⟨⟨cs.drop column, ⟨0, column⟩⟩, #[], [], none, [], true⟩

def inFlow (l : Lexer) : Bool := !l.outer.isEmpty

def column (l : Lexer) : Nat := l.input.column

/-- The least column of text that belongs to the innermost block collection's contents. -/
def minimumColumn (l : Lexer) : Nat := l.columns.head?.elim 0 (· + 1)

def emit (l : Lexer) (t : Token) : Lexer := { l with tokens := l.tokens.push t }

def skip (l : Lexer) (n : Nat) : Lexer := { l with input := l.input.skip n }

def allowKey (l : Lexer) (allowed : Bool) : Lexer := { l with keyAllowed := allowed }

/-- Gives up the key that may have begun here; a required one cannot be given up. -/
def forgetKey? (l : Lexer) : Option Lexer :=
  if l.pending.any (·.required) then none else some { l with pending := none }

def markKey? (l : Lexer) : Option Lexer :=
  if l.keyAllowed then
    let required := !l.inFlow && l.columns.head? = some l.column
    l.forgetKey?.map fun l =>
      { l with pending := some ⟨l.input.position, l.tokens.size, required⟩ }
  else some l

def keyLimit : Nat := 1024

/-- A key lies on one line and is not too long. -/
def KeyMark.isStale (k : KeyMark) (p : Position) : Bool :=
  k.start.line < p.line || k.start.column + keyLimit < p.column

def forgetStale? (l : Lexer) : Option Lexer :=
  let stale (k : Option KeyMark) := k.any (KeyMark.isStale · l.input.position)
  let keep (k : Option KeyMark) := if stale k then none else k
  if (l.pending :: l.outer).any (fun k => stale k && k.any (·.required)) then none
  else some { l with pending := keep l.pending, outer := l.outer.map keep }

/-- Opens a block collection at a column right of the open ones, before the token with the given
number. -/
def indent (l : Lexer) (column number : Nat) (t : Token) : Lexer :=
  if !l.inFlow && l.columns.head?.all (· < column) then
    { l with
      columns := column :: l.columns
      tokens := l.tokens.insertIdxIfInBounds number t }
  else l

/-- Closes the block collections that a condition on their column selects, from the innermost. -/
def dedent (l : Lexer) (closes : Nat → Bool) : Lexer :=
  if l.inFlow then l
  else
    { l with
      columns := l.columns.dropWhile closes
      tokens := l.tokens ++ (l.columns.takeWhile closes).map fun _ => Token.blockEnd }

/-- Moves to the next token. A new line may begin a key in the block context; there a tab cannot
stand where a key may begin. -/
def blanksFrom (inFlow : Bool) :
    Bool → Bool → Position → List Char → Bool × Cursor
  | _, allowed, p, [] => (allowed, ⟨[], p⟩)
  | inComment, allowed, p, c :: rest =>
    if isBreak c then blanksFrom inFlow false (allowed || !inFlow) (p.after c) rest
    else if inComment || c = ' ' || (c = '\t' && (inFlow || !allowed)) then
      blanksFrom inFlow inComment allowed (p.after c) rest
    else if c = '#' then blanksFrom inFlow true allowed (p.after c) rest
    else (allowed, ⟨c :: rest, p⟩)

def toToken (l : Lexer) : Lexer :=
  let (allowed, input) := blanksFrom l.inFlow false l.keyAllowed l.input.position l.input.rest
  { l with input, keyAllowed := allowed }

def closeAll? (l : Lexer) : Option Lexer :=
  (l.dedent fun _ => true).forgetKey?.map (·.allowKey false)

/-- A token of fixed length that stands between others and before which no key ends. -/
def mark? (l : Lexer) (t : Token) (allowed : Bool) : Option Lexer :=
  l.forgetKey?.map fun l => ((l.allowKey allowed).emit t).skip 1

def openFlow? (l : Lexer) (t : Token) : Option Lexer :=
  l.markKey?.map fun l =>
    (({ l with pending := none, outer := l.pending :: l.outer }.allowKey true).emit t).skip 1

def closeFlow? (l : Lexer) (t : Token) : Option Lexer :=
  l.forgetKey?.map fun l =>
    let l := match l.outer with
      | k :: outer => { l with pending := k, outer }
      | [] => l
    ((l.allowKey false).emit t).skip 1

/-- A dash or question mark that begins an entry or key of a block collection. -/
def blockMark? (l : Lexer) (collection t : Token) (allowed : Bool) : Option Lexer :=
  if !l.inFlow && !l.keyAllowed then none
  else (l.indent l.column l.tokens.size collection).mark? t allowed

/-- A colon. If a key may have begun on this line, the tokens that announce it go before it. -/
def value? (l : Lexer) : Option Lexer :=
  match l.pending with
  | some k =>
    let l := { l with tokens := l.tokens.insertIdxIfInBounds k.number .key, pending := none }
    let l := l.indent k.start.column k.number .blockMapping
    some (((l.allowKey false).emit .value).skip 1)
  | none =>
    if !l.inFlow && !l.keyAllowed then none
    else
      let l := l.indent l.column l.tokens.size .blockMapping
      some (((l.allowKey (!l.inFlow)).emit .value).skip 1)

/-- A token that may begin a key: a scalar, an anchor, an alias or a tag. -/
def content? (l : Lexer) (read : Cursor → Option (Token × Cursor)) : Option Lexer :=
  l.markKey?.bind fun l =>
    (read l.input).map fun (t, input) => { (l.allowKey false).emit t with input }

def blockScalar? (l : Lexer) (folded : Bool) : Option Lexer :=
  l.forgetKey?.bind fun l =>
    (block? folded l.columns.head? l.input).map fun (text, input) =>
      let style := if folded then ScalarStyle.folded else .literal
      { (l.allowKey true).emit (.scalar style text) with input }

def plainScalar? (l : Lexer) : Option Lexer :=
  l.markKey?.bind fun l =>
    (plain? l.inFlow l.minimumColumn l.input).map fun (text, multiline, input) =>
      { (l.allowKey multiline).emit (.scalar .plain text) with input }

def isIndicator (c : Char) : Bool :=
  ['-', '?', ':', ',', '[', ']', '{', '}', '#', '&', '*', '!', '|', '>', '\'', '"', '%', '@',
    '\x60'].contains c

/-- A dash begins a plain scalar when no gap follows it, and so do a question mark and a colon
outside flow collections. -/
def beginsPlain (inFlow : Bool) (c : Char) (rest : List Char) : Bool :=
  !(isBlank c || isBreak c || isIndicator c) ||
    ((c = '-' || (!inFlow && (c = '?' || c = ':'))) && !atGap rest)

def token? (l : Lexer) (c : Char) (rest : List Char) : Option Lexer :=
  let indicates := l.inFlow || atGap rest
  if l.column = 0 ∧ c = '%' then
    l.closeAll?.bind fun l =>
      (directive? l.input).map fun (t, input) => { l.emit t with input }
  else if l.input.atMarker '-' then l.closeAll?.map fun l => (l.emit .documentStart).skip 3
  else if l.input.atMarker '.' then l.closeAll?.map fun l => (l.emit .documentEnd).skip 3
  else if c = '[' then l.openFlow? .flowSequence
  else if c = '\x7b' then l.openFlow? .flowMapping
  else if c = ']' then l.closeFlow? .flowSequenceEnd
  else if c = '\x7d' then l.closeFlow? .flowMappingEnd
  else if c = ',' then l.mark? .flowEntry true
  else if c = '-' ∧ atGap rest then l.blockMark? .blockSequence .blockEntry true
  else if c = '?' ∧ indicates then l.blockMark? .blockMapping .key (!l.inFlow)
  else if c = ':' ∧ indicates then l.value?
  else if c = '*' then
    l.content? fun input => (anchorName? input).map fun (name, next) => (.aliasOf name, next)
  else if c = '&' then
    l.content? fun input => (anchorName? input).map fun (name, next) => (.anchor name, next)
  else if c = '!' then l.content? (tag? l.inFlow)
  else if c = '|' ∧ !l.inFlow then l.blockScalar? false
  else if c = '>' ∧ !l.inFlow then l.blockScalar? true
  else if c = '\'' ∨ c = '"' then
    l.content? fun input =>
      (quoted? (c = '\'') input).map fun (text, next) => (.scalar .quoted text, next)
  else if beginsPlain l.inFlow c rest then l.plainScalar?
  else none

def run? : Nat → Lexer → Option (List Token)
  | 0, _ => none
  | fuel + 1, l =>
    let l := l.toToken
    l.forgetStale?.bind fun l =>
      let l := l.dedent (l.column < ·)
      match l.input.rest with
      | [] => l.closeAll?.map (·.tokens.toList)
      | c :: rest => (l.token? c rest).bind (run? fuel)

end Lexer

def tokens? (text : String) : Option (List Token) :=
  if text.toList.all isPrintable then
    let cs := unifyBreaks text.toList
    (Lexer.ofText cs).run? (cs.length + 1)
  else none

end ApiContract.Yaml

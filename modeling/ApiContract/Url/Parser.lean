import ApiContract.Url.Host

/-!
Absolute URLs as far as two documents are compared by them: scheme, host, port and path.

Schemes of the web have a host and a path of segments, in which dots are resolved and a backslash is
a slash; files have drive letters on top of that. Any other scheme may have a host, a path of
segments or a path that is just text.
-/

namespace ApiContract

/-- The parts of an absolute URL that tell documents apart. A port that goes with the scheme is left
out. -/
structure Url where
  scheme : String
  host : Option Url.Host
  port : Option Nat
  path : String
deriving DecidableEq

namespace Url

inductive SchemeKind where
  | web
  | file
  | other
deriving DecidableEq

def SchemeKind.ofScheme (scheme : String) : SchemeKind :=
  if scheme ∈ ["http", "https", "ws", "wss", "ftp"] then web
  else if scheme = "file" then file
  else other

def defaultPort? (scheme : String) : Option Nat :=
  match scheme with
  | "http" | "ws" => some 80
  | "https" | "wss" => some 443
  | "ftp" => some 21
  | _ => none

def isSlash (c : Char) : Bool := c = '/' || c = '\\'

def isSeparator (kind : SchemeKind) (c : Char) : Bool := c = '/' || (kind != .other && c = '\\')

def isTail (c : Char) : Bool := c = '?' || c = '#'

/-- Drops blanks and controls at both ends, and tabs and line breaks everywhere. -/
def clean (cs : List Char) : List Char :=
  let outer (c : Char) : Bool := c.toNat ≤ 0x20
  (((cs.dropWhile outer).reverse.dropWhile outer).reverse).filter fun c =>
    !(c = '\t' || c = '\n' || c = '\r')

def scheme? (cs : List Char) : Option (String × List Char) :=
  let isPart (c : Char) : Bool := c.isAlphanum || c = '+' || c = '-' || c = '.'
  let name := cs.takeWhile isPart
  match name, cs.dropWhile isPart with
  | c :: _, ':' :: rest =>
    if c.isAlpha then some (String.ofList (name.map Char.toLower), rest) else none
  | _, _ => none

/-- Drops a user and a password; tells whether there was anything before the sign. -/
def dropUser? (kind : SchemeKind) (cs : List Char) : Option (Bool × List Char) :=
  let isEnd (c : Char) : Bool := isSeparator kind c || isTail c
  let authority := cs.takeWhile fun c => !isEnd c
  if authority.contains '@' then
    let host := (authority.reverse.takeWhile (· ≠ '@')).reverse
    let rest := host ++ cs.drop authority.length
    let user := authority.take (authority.length - host.length - 1)
    if user = [] ∧ rest.head?.any isEnd then none else some (user ≠ [], rest)
  else some (false, cs)

/-- Splits the text of a host off; colons in brackets belong to it. -/
def splitHost (kind : SchemeKind) (bracketed : Bool) : List Char → List Char × List Char
  | [] => ([], [])
  | c :: cs =>
    if isSeparator kind c || isTail c || (c = ':' && !bracketed) then ([], c :: cs)
    else
      let inside := if c = '[' then true else if c = ']' then false else bracketed
      let (host, rest) := splitHost kind inside cs
      (c :: host, rest)

def port? (scheme : String) (cs : List Char) : Option (Option Nat × List Char) :=
  let digits := cs.takeWhile Char.isDigit
  let rest := cs.dropWhile Char.isDigit
  let n := Decimal.ofDigits digits
  if rest.head?.any fun c => !(isSlash c || isTail c) then none
  else if 65535 < n then none
  else some (if digits = [] ∨ defaultPort? scheme = some n then none else some n, rest)

def authority? (scheme : String) (kind : SchemeKind) (cs : List Char) :
    Option (Option Host × Option Nat × List Char) := do
  let (hasUser, cs) ← dropUser? kind cs
  let (text, rest) := splitHost kind false cs
  let host ←
    if text = [] then if kind = .web then none else some none
    else (if kind = .other then Host.ofOpaque? text else Host.ofSpecial? text).map some
  if host.isNone ∧ (hasUser ∨ rest.head? = some ':') then none
  else
    match rest with
    | ':' :: rest =>
      let (port, rest) ← port? scheme rest
      return (host, port, rest)
    | _ => return (host, none, rest)

def isReserved (c : Char) : Bool :=
  isControl c || " \"<>\x60#?\x7b\x7d".toList.contains c

def isDot (segment : List Char) : Bool :=
  segment = ['.'] || segment.map Char.toLower = "%2e".toList

def isDoubleDot (segment : List Char) : Bool :=
  let s := segment.map Char.toLower
  s = "..".toList || s = ".%2e".toList || s = "%2e.".toList || s = "%2e%2e".toList

def isDriveLetter (segment : List Char) : Bool :=
  match segment with
  | [c, d] => c.isAlpha && (d = ':' || d = '|')
  | _ => false

def splitSegments (kind : SchemeKind) (cs : List Char) : List (List Char) :=
  Text.splitOnChar '/'
    ((cs.takeWhile fun c => !isTail c).map fun c => if isSeparator kind c then '/' else c)

/-- Resolves dots; the segments before the current one are given last first. A drive letter at the
start of a file path is never left. -/
def resolveDots (kind : SchemeKind) (before : List (List Char)) :
    List (List Char) → List (List Char)
  | [] => before.reverse
  | segment :: rest =>
    let isLast := rest.isEmpty
    if isDoubleDot segment then
      let kept := match before with
        | [drive] => if kind = .file ∧ isDriveLetter drive then [drive] else []
        | _ => before.drop 1
      resolveDots kind (if isLast then [] :: kept else kept) rest
    else if isDot segment then resolveDots kind (if isLast then [] :: before else before) rest
    else
      let segment :=
        if kind = .file ∧ before = [] ∧ isDriveLetter segment then segment.take 1 ++ [':']
        else segment
      resolveDots kind (segment :: before) rest

def pathText (segments : List (List Char)) : List Char := segments.flatMap fun s => '/' :: s

/-- The path of segments; the text begins behind its first slash. -/
def segmentPath (kind : SchemeKind) (cs : List Char) : List Char :=
  let segments := (splitSegments kind cs).map (Text.percentEncode isReserved)
  let path := pathText (resolveDots kind [] segments)
  if kind = .file then '/' :: path.dropWhile (· = '/') else path

def pathFromAuthority (kind : SchemeKind) (cs : List Char) : List Char :=
  match cs with
  | [] => if kind = .other then [] else ['/']
  | c :: rest =>
    if isTail c then if kind = .other then [] else ['/']
    else if isSeparator kind c then segmentPath kind rest
    else segmentPath kind cs

def opaquePath (cs : List Char) : List Char :=
  Text.percentEncode isControl (cs.takeWhile fun c => !isTail c)

def ofFile? (scheme : String) (cs : List Char) : Option Url :=
  match cs with
  | c :: d :: rest =>
    if isSlash c && isSlash d then
      let text := rest.takeWhile fun c => !(isSlash c || isTail c)
      if isDriveLetter text then
        some ⟨scheme, none, none, String.ofList (segmentPath .file rest)⟩
      else
        let path := pathFromAuthority .file (rest.drop text.length)
        let atDrive := isDriveLetter ((path.drop 1).takeWhile (· ≠ '/'))
        let host :=
          if text = [] then some none
          else (Host.ofSpecial? text).map fun h => if h = .domain "localhost" then none else some h
        host.map fun host =>
          ⟨scheme, if atDrive then none else host, none, String.ofList path⟩
    else if isSlash c then
      some ⟨scheme, none, none, String.ofList (segmentPath .file (d :: rest))⟩
    else some ⟨scheme, none, none, String.ofList (segmentPath .file cs)⟩
  | [c] =>
    some ⟨scheme, none, none, String.ofList (segmentPath .file (if isSlash c then [] else cs))⟩
  | [] => some ⟨scheme, none, none, "/"⟩

def ofText? (text : String) : Option Url :=
  (scheme? (clean text.toList)).bind fun (scheme, rest) =>
    let kind := SchemeKind.ofScheme scheme
    let located (cs : List Char) : Option Url :=
      (authority? scheme kind cs).map fun (host, port, rest) =>
        ⟨scheme, host, port, String.ofList (pathFromAuthority kind rest)⟩
    match kind with
    | .web => located (rest.dropWhile isSlash)
    | .file => ofFile? scheme rest
    | .other =>
      match rest with
      | '/' :: '/' :: cs => located cs
      | '/' :: cs => some ⟨scheme, none, none, String.ofList (segmentPath .other cs)⟩
      | cs => some ⟨scheme, none, none, String.ofList (opaquePath cs)⟩

end Url

end ApiContract

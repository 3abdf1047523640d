import ApiContract.Text.Utf8
import ApiContract.Yaml.Token.Scalar

/-!
Tags, anchors and directives of YAML text.
-/

namespace ApiContract.Yaml

def isUriMark (c : Char) : Bool :=
  [';', '/', '?', ':', '@', '&', '=', '+', '$', '.', '!', '~', '*', '\'', '(', ')'].contains c

def isTagChar (verbatim : Bool) (c : Char) : Bool :=
  isWord c || isUriMark c || (verbatim && (c = ',' || c = '[' || c = ']'))

def escapedByte? : List Char → Option (Nat × List Char)
  | '%' :: h :: l :: rest => (Text.hexNumber? [h, l]).map (·, rest)
  | _ => none

/-- How many bytes a character has whose encoding begins with the given one. -/
def encodedLength? (b : Nat) : Option Nat :=
  if b < 0x80 then some 1
  else if b < 0xC0 then none
  else if b < 0xE0 then some 2
  else if b < 0xF0 then some 3
  else if b < 0xF8 then some 4
  else none

def continuationBytes? : Nat → List Char → Option (List Nat × List Char)
  | 0, cs => some ([], cs)
  | n + 1, cs =>
    (escapedByte? cs).bind fun (b, rest) =>
      if Text.isContinuation b then
        (continuationBytes? n rest).map fun (more, rest) => (b :: more, rest)
      else none

/-- A character of a tag written as the escaped bytes of its encoding. -/
def escapedTagChar? (cs : List Char) : Option (List Char × List Char) :=
  (escapedByte? cs).bind fun (b, rest) =>
    (encodedLength? b).bind fun length =>
      (continuationBytes? (length - 1) rest).map fun (more, rest) =>
        (Text.utf8Decode (b :: more), rest)

def tagText? (verbatim : Bool) : Nat → List Char → Option (List Char × List Char)
  | 0, _ => none
  | fuel + 1, cs =>
    match cs with
    | [] => some ([], [])
    | c :: rest =>
      if c = '%' then
        (escapedTagChar? cs).bind fun (text, rest) =>
          (tagText? verbatim fuel rest).map fun (more, rest) => (text ++ more, rest)
      else if isTagChar verbatim c then
        (tagText? verbatim fuel rest).map fun (more, rest) => (c :: more, rest)
      else some ([], cs)

def Cursor.tagText? (c : Cursor) (verbatim : Bool) : Option (List Char × Cursor) :=
  (Yaml.tagText? verbatim (c.rest.length + 1) c.rest).map fun (text, rest) =>
    (text, c.skip (c.rest.length - rest.length))

/-- A handle: an exclamation mark, word characters and perhaps another exclamation mark. -/
def Cursor.tagHandle? (c : Cursor) : Option (List Char × Cursor) :=
  if c.rest.head? ≠ some '!' then none
  else
    let (word, next) := (c.skip 1).span isWord
    if next.rest.head? = some '!' then some ('!' :: word ++ ['!'], next.skip 1)
    else some ('!' :: word, next)

def isFullHandle (handle : List Char) : Bool := 1 < handle.length && handle.getLast? = some '!'

def tagName? (c : Cursor) : Option (TagName × Cursor) :=
  if c.rest[1]? = some '<' then
    ((c.skip 2).tagText? true).bind fun (text, next) =>
      if text ≠ [] ∧ next.rest.head? = some '>' then some (⟨[], text⟩, next.skip 1) else none
  else
    c.tagHandle?.bind fun (handle, next) =>
      (next.tagText? false).bind fun (text, next) =>
        if isFullHandle handle then
          if text = [] then none else some (⟨handle, text⟩, next)
        else
          let suffix := handle.drop 1 ++ text
          some (if suffix = [] then ⟨[], ['!']⟩ else ⟨['!'], suffix⟩, next)

def tag? (inFlow : Bool) (c : Cursor) : Option (Token × Cursor) :=
  (tagName? c).bind fun (name, next) =>
    if atGap next.rest ∨ (inFlow ∧ next.rest.head? = some ',') then some (.tag name, next)
    else none

def endsAnchor (c : Char) : Bool := ['?', ':', ',', ']', '}', '%', '@', '\x60'].contains c

def anchorName? (c : Cursor) : Option (List Char × Cursor) :=
  let (name, next) := (c.skip 1).span isWord
  if name ≠ [] ∧ (atGap next.rest ∨ next.rest.head?.any endsAnchor) then some (name, next)
  else none

def versionPart? (c : Cursor) : Option (Nat × Cursor) :=
  let (digits, next) := c.span Char.isDigit
  if digits = [] ∨ 9 < digits.length then none else some (Decimal.ofDigits digits, next)

def versionDirective? (c : Cursor) : Option (Token × Cursor) :=
  (versionPart? c).bind fun (major, c) =>
    if c.rest.head? = some '.' then
      (versionPart? (c.skip 1)).map fun (minor, c) => (.version major minor, c)
    else none

def tagDirective? (c : Cursor) : Option (Token × Cursor) :=
  c.tagHandle?.bind fun (handle, c) =>
    if (handle = ['!'] ∨ isFullHandle handle) ∧ c.rest.head?.any isBlank then
      ((c.skipWhile isBlank).tagText? true).bind fun (text, c) =>
        if text ≠ [] ∧ atGap c.rest then some (.tagPrefix handle text, c) else none
    else none

def directive? (c : Cursor) : Option (Token × Cursor) :=
  let (name, next) := (c.skip 1).span isWord
  let arguments := next.skipWhile isBlank
  let read :=
    if !atGap next.rest then none
    else if name = "YAML".toList then versionDirective? arguments
    else if name = "TAG".toList then tagDirective? arguments
    else none
  read.bind fun (token, c) => c.finishLine?.map (token, ·)

end ApiContract.Yaml

import ApiContract.Text.Percent
import ApiContract.Url.FilePath
import ApiContract.Url.Parser

/-!
Reading a reference as the name of a schema in the same document.

A reference is a bare name, or a pointer into one of the two sections that hold schemas. A pointer
may stand behind the document it points into, which then has to be this one. Documents are never
fetched.
-/

namespace ApiContract.Reference

def replaceEscape (digit by_ : Char) : List Char → List Char
  | '~' :: c :: cs =>
    if c = digit then by_ :: replaceEscape digit by_ cs
    else '~' :: replaceEscape digit by_ (c :: cs)
  | c :: cs => c :: replaceEscape digit by_ cs
  | [] => []

/-- The name in a segment of a pointer: its escapes are undone first and percent-encoding last. -/
def decodeSegment (segment : List Char) : String :=
  Text.percentDecodeText (String.ofList (replaceEscape '0' '~' (replaceEscape '1' '/' segment)))

/-- Whether the document part of a reference names the document at `self`: by the same text, as the
same URL up to query and user, by the path of a URL, or as the same file path. -/
def namesDocument (document self : String) : Bool :=
  if document = self then true
  else
    match Url.ofText? document, Url.ofText? self with
    | some d, some s => d = s
    | d, _ =>
      if self.toList.head? = some '/' ∧ d.isSome then d.any fun u => u.path = self
      else
        !hasAuthority self && !hasAuthority document &&
          decide (FilePath.ofText document = FilePath.ofText self)
where
  hasAuthority (text : String) : Bool :=
    (Text.splitAt? [':', '/', '/'] text.toList).isSome

def pointer? (reference : List Char) (self : Option String) : Option (List Char) :=
  if reference.head? = some '#' then some reference
  else
    match Text.splitAt? ['#'] reference, self with
    | some (document, fragment), some self =>
      if namesDocument (String.ofList document) self then some ('#' :: fragment) else none
    | _, _ => none

def sections : List (List (List Char)) :=
  [["components".toList, "schemas".toList], ["definitions".toList]]

/-- The segments of a pointer without the marks at its start. -/
def segments (pointer : List Char) : List (List Char) :=
  Text.splitOnChar '/' ((pointer.dropWhile (· = '#')).dropWhile (· = '/'))

def nonempty? (name : String) : Option String := if name = "" then none else some name

/-- The name of the schema that a reference points to in the document at `self`. -/
def schemaName? (reference : String) (self : Option String) : Option String :=
  let cs := reference.toList
  if ¬ cs.contains '#' ∧ ¬ cs.contains '/' then nonempty? reference
  else
    (pointer? cs self).bind fun pointer =>
      let segments := segments pointer
      if segments.dropLast ∈ sections then
        segments.getLast?.bind fun s => nonempty? (decodeSegment s)
      else none

end ApiContract.Reference

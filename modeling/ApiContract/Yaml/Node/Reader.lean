import ApiContract.Entries
import ApiContract.Yaml.Node.Basic
import ApiContract.Yaml.Token.Lexer

/-!
From YAML tokens to nodes.

A node that is missing where one could stand is an empty plain scalar. Between a question mark and
what ends the entry of a flow sequence nothing may be missing: there the token that ends it is
passed over.
-/

namespace ApiContract.Yaml

/-- The tokens that are left, the anchors seen so far, and what handles of tags stand for. -/
structure Reading where
  tokens : List Token
  anchors : Entries Nat := []
  handles : List (List Char × List Char)

abbrev Reader := StateT Reading Option

namespace Reader

def peek : Reader (Option Token) := return (← get).tokens.head?

def advance : Reader Unit := modify fun r => { r with tokens := r.tokens.tail }

def empty : Node := .scalar {} .plain ""

def atOneOf (ts : List Token) : Reader Bool :=
  return (← peek).any ts.contains

/-- A name that is new gets the next number; one that is known takes it too. -/
def defineAnchor (name : List Char) : Reader Nat := do
  let r ← get
  let number := r.anchors.length
  set { r with anchors := r.anchors.insert (String.ofList name) number }
  return number

def expandTag (name : TagName) : Reader (List Char) := do
  if name.handle = [] then return name.suffix
  else return (← (← get).handles.lookup name.handle) ++ name.suffix

def properties : Reader Properties := do
  match ← peek with
  | some (.anchor name) =>
    advance
    match ← peek with
    | some (.tag tag) =>
      advance
      let tag ← expandTag tag
      return ⟨some (← defineAnchor name), some tag⟩
    | _ => return ⟨some (← defineAnchor name), none⟩
  | some (.tag tag) =>
    advance
    match ← peek with
    | some (.anchor name) =>
      advance
      let tag ← expandTag tag
      return ⟨some (← defineAnchor name), some tag⟩
    | _ => return ⟨none, some (← expandTag tag)⟩
  | _ => return {}

/-- A scalar with the tag `!` has no tag. -/
def scalar (p : Properties) (style : ScalarStyle) (text : List Char) : Node :=
  .scalar (if p.tag = some ['!'] then { p with tag := none } else p) style (String.ofList text)

mutual

/-- Reads a node. Block collections are read in the block context only; a block sequence without
indentation of its own can be the value of a key. -/
def node : Nat → Bool → Bool → Reader Node
  | 0, _, _ => failure
  | fuel + 1, inBlock, indentless => do
    match ← peek with
    | some (.aliasOf name) =>
      advance
      return .aliasOf (← (← get).anchors.get? (String.ofList name))
    | _ =>
      let p ← properties
      match ← peek with
      | some (.scalar style text) =>
        advance
        return scalar p style text
      | some .flowSequence =>
        advance
        return .sequence p (← flowItems fuel true)
      | some .flowMapping =>
        advance
        return .mapping p (← flowPairs fuel true)
      | next =>
        if next = some .blockEntry ∧ indentless then return .sequence p (← indentlessItems fuel)
        else if next = some .blockSequence ∧ inBlock then
          advance
          return .sequence p (← blockItems fuel)
        else if next = some .blockMapping ∧ inBlock then
          advance
          return .mapping p (← blockPairs fuel)
        else if p.anchor.isSome ∨ p.tag.isSome then return .scalar p .plain ""
        else failure

def nodeUnless : Nat → Bool → Bool → List Token → Reader Node
  | 0, _, _, _ => failure
  | fuel + 1, inBlock, indentless, ends => do
    if ← atOneOf ends then return empty else node fuel inBlock indentless

def blockItems : Nat → Reader (List Node)
  | 0 => failure
  | fuel + 1 => do
    match ← peek with
    | some .blockEntry =>
      advance
      let item ← nodeUnless fuel true false [.blockEntry, .blockEnd]
      return item :: (← blockItems fuel)
    | some .blockEnd =>
      advance
      return []
    | _ => failure

def indentlessItems : Nat → Reader (List Node)
  | 0 => failure
  | fuel + 1 => do
    match ← peek with
    | some .blockEntry =>
      advance
      let item ← nodeUnless fuel true false [.blockEntry, .key, .value, .blockEnd]
      return item :: (← indentlessItems fuel)
    | _ => return []

def blockPairs : Nat → Reader (List (Node × Node))
  | 0 => failure
  | fuel + 1 => do
    match ← peek with
    | some .key =>
      advance
      let k ← nodeUnless fuel true true [.key, .value, .blockEnd]
      let v ← valueUnless fuel true [.key, .value, .blockEnd]
      return (k, v) :: (← blockPairs fuel)
    | some .blockEnd =>
      advance
      return []
    | _ => failure

def valueUnless : Nat → Bool → List Token → Reader Node
  | 0, _, _ => failure
  | fuel + 1, inBlock, ends => do
    match ← peek with
    | some .value =>
      advance
      nodeUnless fuel inBlock inBlock ends
    | _ => return empty

def flowItems : Nat → Bool → Reader (List Node)
  | 0, _ => failure
  | fuel + 1, isFirst => do
    if !isFirst ∧ (← peek) = some .flowEntry then advance
    else if !isFirst ∧ (← peek) ≠ some .flowSequenceEnd then failure
    match ← peek with
    | some .flowSequenceEnd =>
      advance
      return []
    | some .key =>
      advance
      let k ←
        if ← atOneOf [.value, .flowEntry, .flowSequenceEnd] then
          advance
          pure empty
        else node fuel false false
      let v ← valueUnless fuel false [.flowEntry, .flowSequenceEnd]
      return .mapping {} [(k, v)] :: (← flowItems fuel false)
    | _ =>
      let item ← node fuel false false
      return item :: (← flowItems fuel false)

def flowPairs : Nat → Bool → Reader (List (Node × Node))
  | 0, _ => failure
  | fuel + 1, isFirst => do
    if !isFirst ∧ (← peek) = some .flowEntry then advance
    else if !isFirst ∧ (← peek) ≠ some .flowMappingEnd then failure
    match ← peek with
    | some .flowMappingEnd =>
      advance
      return []
    | some .key =>
      advance
      let k ← nodeUnless fuel false false [.value, .flowEntry, .flowMappingEnd]
      let v ← valueUnless fuel false [.flowEntry, .flowMappingEnd]
      return (k, v) :: (← flowPairs fuel false)
    | _ =>
      let k ← node fuel false false
      return (k, empty) :: (← flowPairs fuel false)

end

/-- Directives: at most one version, which must be 1.1 or 1.2, and each handle once. -/
def directives : Nat → Bool → List (List Char × List Char) →
    Reader (List (List Char × List Char))
  | 0, _, _ => failure
  | fuel + 1, versioned, handles => do
    match ← peek with
    | some (.version major minor) =>
      if versioned ∨ major ≠ 1 ∨ (minor ≠ 1 ∧ minor ≠ 2) then failure
      advance
      directives fuel true handles
    | some (.tagPrefix handle expansion) =>
      if (handles.lookup handle).isSome then failure
      advance
      directives fuel versioned (handles ++ [(handle, expansion)])
    | _ => return handles

def defaultHandles : List (List Char × List Char) :=
  [(['!'], ['!']), (['!', '!'], "tag:yaml.org,2002:".toList)]

def isDocumentToken : Token → Bool
  | .version _ _ => true
  | .tagPrefix _ _ => true
  | .documentStart => true
  | .documentEnd => true
  | _ => false

/-- Reads a document. Only one that begins with its mark can be empty or have directives. -/
def document (fuel : Nat) : Reader Node := do
  match ← peek with
  | some (.version _ _) | some (.tagPrefix _ _) | some .documentStart =>
    let handles ← directives fuel false []
    if (← peek) ≠ some .documentStart then failure
    advance
    modify fun r => { r with handles := handles ++ defaultHandles }
    if (← peek).all isDocumentToken then return empty else node fuel true false
  | _ => node fuel true false

end Reader

/-- The single document of a text; a text without any has no root. -/
def root? (text : String) : Option (Option Node) :=
  (tokens? text).bind fun tokens =>
    if tokens = [] then some none
    else
      let fuel := 4 * (tokens.length + 1)
      ((Reader.document fuel).run ⟨tokens, [], Reader.defaultHandles⟩).bind fun (node, reading) =>
        if reading.tokens.all (· = .documentEnd) then some (some node) else none

end ApiContract.Yaml

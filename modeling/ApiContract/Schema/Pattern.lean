import ApiContract.Regex.Parser

/-!
Patterns of string schemas: a regular expression that has to match the whole text.
-/

namespace ApiContract

def anchored (source : String) : String := "^(?:" ++ source ++ ")$"

/-- A pattern together with the expression that its anchored form denotes. -/
structure Pattern where
  source : String
  regex : Regex
  compiled : Regex.ofPattern? (anchored source) = some regex

namespace Pattern

/-- Compiles a source; `none` for an invalid one. -/
def ofSource? (source : String) : Option Pattern :=
  match h : Regex.ofPattern? (anchored source) with
  | some regex => some ⟨source, regex, h⟩
  | none => none

def isMatch (p : Pattern) (text : String) : Bool := p.regex.isMatch text.toList

end Pattern

end ApiContract

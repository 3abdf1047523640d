import ApiContract.Text.Percent

/-!
File paths as lists of their components.

Repeated and trailing slashes and dots inside a path do not count; a dot at the very start does.
-/

namespace ApiContract

structure FilePath where
  rooted : Bool
  dotted : Bool
  names : List (List Char)
deriving DecidableEq

namespace FilePath

def ofText (text : String) : FilePath :=
  let cs := text.toList
  let parts := Text.splitOnChar '/' cs
  let rooted := cs.head? = some '/'
  { rooted
    dotted := !rooted && parts.head? == some ['.']
    names := parts.filter fun p => p ≠ [] ∧ p ≠ ['.'] }

end FilePath

end ApiContract

import ApiContract.Unicode.Category
import ApiContract.Unicode.Property

/-!
Text in quotes for a log: quotes, backslashes and everything that could not be seen is escaped.
-/

namespace ApiContract.Text

open Unicode

/-- Controls, format characters, blanks other than the space, and what is private or unassigned. -/
def unseen : CodeSet :=
  (ofCategories (Category.separators ++ Category.others)).diff (CodeSet.singleton 0x20)

def joining : CodeSet := CodeSet.ofGaps 0 (numbers graphemeExtendText)

def quotedChar (c : Char) : List Char :=
  match c with
  | '"' => ['\\', '"']
  | '\\' => ['\\', '\\']
  | '\t' => ['\\', 't']
  | '\n' => ['\\', 'n']
  | '\r' => ['\\', 'r']
  | '\x00' => ['\\', '0']
  | c =>
    if joining.contains c.toNat || unseen.contains c.toNat then
      ['\\', 'u', '\x7b'] ++ Nat.toDigits 16 c.toNat ++ ['\x7d']
    else [c]

def quoted (s : String) : String := "\"" ++ String.ofList (s.toList.flatMap quotedChar) ++ "\""

def quotedList (items : List String) : String := "[" ++ ", ".intercalate (items.map quoted) ++ "]"

end ApiContract.Text

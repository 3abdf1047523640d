import ApiContract.Binding.Request
import Mathlib.Data.List.Forall2

/-!
Texts that differ by the case of their letters alone.

Only the letters of ASCII have two cases here, which lie 32 places apart. Two texts have the same
text in lower case exactly if they are the same letter by letter.
-/

namespace ApiContract

namespace Text

def Cases (upper lower : Char) : Prop :=
  ('A' ≤ upper ∧ upper ≤ 'Z') ∧ lower.toNat = upper.toNat + 32

def SameLetter (c d : Char) : Prop := c = d ∨ Cases c d ∨ Cases d c

/-- The same text up to the case of letters. -/
def SameLetters (cs ds : List Char) : Prop := List.Forall₂ SameLetter cs ds

theorem isUpper_iff {c : Char} : 'A' ≤ c ∧ c ≤ 'Z' ↔ 65 ≤ c.toNat ∧ c.toNat ≤ 90 := by
  rw [Char.le_def, Char.le_def, UInt32.le_iff_toNat_le, UInt32.le_iff_toNat_le]
  rfl

theorem toNat_toLower (c : Char) :
    c.toLower.toNat = if 65 ≤ c.toNat ∧ c.toNat ≤ 90 then c.toNat + 32 else c.toNat := by
  by_cases upper : c.val ≥ 'A'.val ∧ c.val ≤ 'Z'.val
  · have atMost := (isUpper_iff.mp upper).2
    have distance : ('a'.val - 'A'.val).toNat = 32 := rfl
    have moved : (c.val + ('a'.val - 'A'.val)).toNat = c.toNat + 32 := by
      rw [UInt32.toNat_add, Char.toNat_val, distance]
      omega
    rw [if_pos (isUpper_iff.mp upper), ← moved]
    exact congrArg Char.toNat (dif_pos upper)
  · rw [if_neg (mt isUpper_iff.mpr upper)]
    exact congrArg Char.toNat (dif_neg upper)

theorem toLower_eq_iff {c d : Char} : c.toLower = d.toLower ↔ SameLetter c d := by
  unfold SameLetter Cases
  rw [← Char.toNat_inj, ← Char.toNat_inj, toNat_toLower, toNat_toLower, isUpper_iff,
    isUpper_iff]
  split_ifs <;> omega

end Text

namespace Request

theorem lowerCase_eq_iff {a b : String} :
    lowerCase a = lowerCase b ↔ Text.SameLetters a.toList b.toList := by
  rw [lowerCase, lowerCase, String.ofList_inj, Text.SameLetters, ← List.forall₂_eq_eq_eq,
    List.forall₂_map_left_iff, List.forall₂_map_right_iff]
  simp only [Text.toLower_eq_iff]

end Request

end ApiContract

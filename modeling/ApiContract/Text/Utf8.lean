/-!
UTF-8: the bytes of characters, and reading bytes with a replacement for what is malformed.

A malformed sequence is replaced once as far as it could have been the start of a character; reading
goes on at the byte that broke it off.
-/

namespace ApiContract.Text

def replacement : Char := '\ufffd'

def encodeChar (c : Char) : List Nat :=
  let n := c.toNat
  if n < 0x80 then [n]
  else if n < 0x800 then [0xC0 + n / 0x40, 0x80 + n % 0x40]
  else if n < 0x10000 then [0xE0 + n / 0x1000, 0x80 + n / 0x40 % 0x40, 0x80 + n % 0x40]
  else [0xF0 + n / 0x40000, 0x80 + n / 0x1000 % 0x40, 0x80 + n / 0x40 % 0x40, 0x80 + n % 0x40]

def utf8Encode (cs : List Char) : List Nat := cs.flatMap encodeChar

def isContinuation (b : Nat) : Bool := 0x80 ≤ b && b ≤ 0xBF

/-- What a leading byte asks for: the number of bytes to follow and the range of the first of
them, which rules out overlong forms, surrogates and what lies beyond the last code point. -/
def leading? (b : Nat) : Option (Nat × Nat × Nat) :=
  if 0xC2 ≤ b ∧ b ≤ 0xDF then some (1, 0x80, 0xBF)
  else if b = 0xE0 then some (2, 0xA0, 0xBF)
  else if b = 0xED then some (2, 0x80, 0x9F)
  else if 0xE1 ≤ b ∧ b ≤ 0xEF then some (2, 0x80, 0xBF)
  else if b = 0xF0 then some (3, 0x90, 0xBF)
  else if 0xF1 ≤ b ∧ b ≤ 0xF3 then some (3, 0x80, 0xBF)
  else if b = 0xF4 then some (3, 0x80, 0x8F)
  else none

/-- Reads `n` more continuation bytes onto a code point; on failure tells where it stopped. -/
def continued (n value : Nat) (bs : List Nat) : Option Nat × List Nat :=
  match n, bs with
  | 0, bs => (some value, bs)
  | _ + 1, [] => (none, [])
  | n + 1, b :: bs =>
    if isContinuation b then continued n (value * 0x40 + b % 0x40) bs else (none, b :: bs)

def decodeHead (b : Nat) (bs : List Nat) : Char × List Nat :=
  if b < 0x80 then (Char.ofNat b, bs)
  else
    match leading? b with
    | none => (replacement, bs)
    | some (n, low, high) =>
      match bs with
      | [] => (replacement, [])
      | c :: rest =>
        if low ≤ c ∧ c ≤ high then
          match continued (n - 1) (b % Nat.pow 2 (6 - n) * 0x40 + c % 0x40) rest with
          | (some value, rest) => (Char.ofNat value, rest)
          | (none, rest) => (replacement, rest)
        else (replacement, c :: rest)

theorem length_continued_le (n value : Nat) (bs : List Nat) :
    (continued n value bs).2.length ≤ bs.length := by
  induction n generalizing value bs with
  | zero => simp [continued]
  | succ n ih =>
    cases bs with
    | nil => simp [continued]
    | cons b bs =>
      simp only [continued]
      split
      · exact Nat.le_succ_of_le (ih _ _)
      · exact Nat.le_refl _

theorem length_decodeHead_le (b : Nat) (bs : List Nat) :
    (decodeHead b bs).2.length ≤ bs.length := by
  unfold decodeHead
  split
  · exact Nat.le_refl _
  · split
    · exact Nat.le_refl _
    · cases bs with
      | nil => simp
      | cons c rest =>
        simp only
        split
        · next n low high _ h =>
          have := length_continued_le (n - 1) (b % Nat.pow 2 (6 - n) * 0x40 + c % 0x40) rest
          split <;> simp_all <;> omega
        · simp

def utf8Decode : List Nat → List Char
  | [] => []
  | b :: bs => (decodeHead b bs).1 :: utf8Decode (decodeHead b bs).2
termination_by bs => bs.length
decreasing_by exact Nat.lt_succ_of_le (length_decodeHead_le b bs)

end ApiContract.Text

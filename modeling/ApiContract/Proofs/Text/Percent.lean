import ApiContract.Text.Percent
import Mathlib.Data.List.Forall2

/-!
Percent-encoded text is read back.

The bytes of a character decode to that character, whatever comes behind them. So a text is read as
the characters it was written for if each of them stands there itself, and is no percent sign, or is
spelled by its bytes.
-/

namespace ApiContract.Text

variable {c : Char} {n value x : Nat} {bytes rest : List Nat}

theorem continued_continuation (small : x < 0x40) :
    continued (n + 1) value ((0x80 + x) :: rest) = continued n (value * 0x40 + x) rest := by
  have isContinuation : isContinuation (0x80 + x) = true := by
    simp only [Text.isContinuation, Bool.and_eq_true, decide_eq_true_eq]
    omega
  have bits : (0x80 + x) % 0x40 = x := by omega
  rw [continued, if_pos isContinuation, bits]

theorem decodeHead_of_leading {b second low high : Nat} (leads : 0x80 ≤ b)
    (leading : leading? b = some (n, low, high)) (inRange : low ≤ second ∧ second ≤ high)
    {rest after : List Nat}
    (continues : continued (n - 1) (b % Nat.pow 2 (6 - n) * 0x40 + second % 0x40) rest =
      (some value, after)) :
    decodeHead b (second :: rest) = (Char.ofNat value, after) := by
  have notAscii : ¬b < 0x80 := by omega
  simp only [decodeHead, if_neg notAscii, leading, if_pos inRange, continues]

theorem exists_leading_three (long : 0x800 ≤ n) (short : n < 0x10000)
    (isScalar : n < 0xD800 ∨ 0xDFFF < n) :
    ∃ low high, leading? (0xE0 + n / 0x1000) = some (2, low, high) ∧
      low ≤ 0x80 + n / 0x40 % 0x40 ∧ 0x80 + n / 0x40 % 0x40 ≤ high := by
  by_cases lowest : n / 0x1000 = 0
  · exact ⟨0xA0, 0xBF, by simp [leading?, lowest], by omega, by omega⟩
  by_cases surrogates : n / 0x1000 = 0xD
  · exact ⟨0x80, 0x9F, by simp [leading?, surrogates], by omega, by omega⟩
  · refine ⟨0x80, 0xBF, ?_, by omega, by omega⟩
    rw [leading?, if_neg (by omega), if_neg (by omega), if_neg (by omega), if_pos (by omega)]

theorem exists_leading_four (long : 0x10000 ≤ n) (short : n < 0x110000) :
    ∃ low high, leading? (0xF0 + n / 0x40000) = some (3, low, high) ∧
      low ≤ 0x80 + n / 0x1000 % 0x40 ∧ 0x80 + n / 0x1000 % 0x40 ≤ high := by
  by_cases lowest : n / 0x40000 = 0
  · exact ⟨0x90, 0xBF, by simp [leading?, lowest], by omega, by omega⟩
  by_cases highest : n / 0x40000 = 4
  · exact ⟨0x80, 0x8F, by simp [leading?, highest], by omega, by omega⟩
  · refine ⟨0x80, 0xBF, ?_, by omega, by omega⟩
    rw [leading?, if_neg (by omega), if_neg (by omega), if_neg (by omega), if_neg (by omega),
      if_neg (by omega), if_pos (by omega)]

/-- The bytes of a character decode to it, one case for each number of bytes. -/
theorem decodeHead_encodeChar (c : Char) (rest : List Nat) :
    ∃ b bytes, encodeChar c = b :: bytes ∧ decodeHead b (bytes ++ rest) = (c, rest) := by
  have isScalar : c.toNat < 0xD800 ∨ 0xDFFF < c.toNat ∧ c.toNat < 0x110000 := c.valid
  have ofNat {value : Nat} (same : value = c.toNat) : Char.ofNat value = c := by
    rw [same, Char.ofNat_toNat]
  have small (k : Nat) : c.toNat / k % 0x40 < 0x40 := Nat.mod_lt _ (by decide)
  have last : c.toNat % 0x40 < 0x40 := Nat.mod_lt _ (by decide)
  unfold encodeChar
  by_cases one : c.toNat < 0x80
  · refine ⟨_, _, if_pos one, ?_⟩
    simp only [decodeHead, if_pos one, List.nil_append, Char.ofNat_toNat]
  rw [if_neg one]
  by_cases two : c.toNat < 0x800
  · refine ⟨_, _, if_pos two, ?_⟩
    have leading : leading? (0xC0 + c.toNat / 0x40) = some (1, 0x80, 0xBF) :=
      if_pos ⟨by omega, by omega⟩
    rw [List.singleton_append, decodeHead_of_leading (by omega) leading (by omega) rfl]
    rw [Nat.pow_eq, ofNat (by omega)]
  rw [if_neg two]
  by_cases three : c.toNat < 0x10000
  · refine ⟨_, _, if_pos three, ?_⟩
    obtain ⟨low, high, leading, inRange⟩ :=
      exists_leading_three (by omega) three (isScalar.imp_right And.left)
    refine (decodeHead_of_leading (by omega) leading inRange (continued_continuation last)).trans ?_
    rw [Nat.pow_eq, ofNat (by omega), List.append_eq, List.nil_append]
  · refine ⟨_, _, if_neg three, ?_⟩
    obtain ⟨low, high, leading, inRange⟩ := exists_leading_four (n := c.toNat) (by omega) (by omega)
    have continues (value : Nat) :
        continued 2 value ((0x80 + c.toNat / 0x40 % 0x40) :: (0x80 + c.toNat % 0x40) :: rest) =
          continued 0 ((value * 0x40 + c.toNat / 0x40 % 0x40) * 0x40 + c.toNat % 0x40) rest := by
      rw [continued_continuation (small 0x40), continued_continuation last]
    refine (decodeHead_of_leading (by omega) leading inRange (continues _)).trans ?_
    rw [Nat.pow_eq, ofNat (by omega)]

theorem utf8Decode_encodeChar (c : Char) (rest : List Nat) :
    utf8Decode (encodeChar c ++ rest) = c :: utf8Decode rest := by
  obtain ⟨b, bytes, encoded, decoded⟩ := decodeHead_encodeChar c rest
  rw [encoded, List.cons_append, utf8Decode, decoded]

theorem utf8Decode_utf8Encode (cs : List Char) : utf8Decode (utf8Encode cs) = cs := by
  induction cs with
  | nil => rw [utf8Encode, List.flatMap_nil, utf8Decode]
  | cons c cs ih => rw [utf8Encode, List.flatMap_cons, utf8Decode_encodeChar, ← utf8Encode, ih]

def EncodesByte (b : Nat) (part : List Char) : Prop :=
  ∃ high low, part = ['%', high, low] ∧
    hexValue? high = some (b / 16) ∧ hexValue? low = some (b % 16)

/-- A character that stands for itself, or that is spelled by its bytes. -/
inductive EncodesChar : Char → List Char → Prop
  | plain {c : Char} : c ≠ '%' → EncodesChar c [c]
  | bytes {c : Char} {parts : List (List Char)} :
      List.Forall₂ EncodesByte (encodeChar c) parts → EncodesChar c parts.flatten

/-- The texts that percent-encode a text, character by character. -/
inductive Encodes : List Char → List Char → Prop
  | nil : Encodes [] []
  | cons {c : Char} {cs part text : List Char} :
      EncodesChar c part → Encodes cs text → Encodes (c :: cs) (part ++ text)

variable {b : Nat} {high low : Char} {name part text : List Char}

theorem encodeChar_of_ascii (isAscii : c.toNat < 0x80) : encodeChar c = [c.toNat] := if_pos isAscii

theorem isAscii_of_hexValue? (isDigit : hexValue? c = some value) : c.toNat < 0x80 := by
  unfold hexValue? at isDigit
  have bound {top : Char} (small : top.toNat < 0x80) (below : c ≤ top) : c.toNat < 0x80 :=
    Nat.lt_of_le_of_lt below small
  split_ifs at isDigit with digit lower upper
  · exact bound (by decide) digit.2
  · exact bound (by decide) lower.2
  · exact bound (by decide) upper.2

theorem hexDigit?_toNat (c : Char) : hexDigit? c.toNat = hexValue? c := by
  rw [hexDigit?, Char.ofNat_toNat]

theorem ne_percent_of_mem_encodeChar (other : c ≠ '%') (isByte : b ∈ encodeChar c) : b ≠ 0x25 := by
  have notSign : c.toNat ≠ 0x25 := fun same => other (Char.toNat_inj.mp same)
  unfold encodeChar at isByte
  simp only at isByte
  split_ifs at isByte
  all_goals
    simp only [List.mem_cons, List.not_mem_nil, or_false] at isByte
    omega

theorem percentDecode_cons_of_ne (other : b ≠ 0x25) :
    percentDecode (b :: rest) = b :: percentDecode rest := by
  match rest with
  | [] => rfl
  | [_] => rfl
  | _ :: _ :: _ => rw [percentDecode, if_neg other]

theorem percentDecode_append_of_ne (others : ∀ b ∈ bytes, b ≠ 0x25) :
    percentDecode (bytes ++ rest) = bytes ++ percentDecode rest := by
  induction bytes with
  | nil => rfl
  | cons b bytes ih =>
    rw [List.cons_append, percentDecode_cons_of_ne (others b List.mem_cons_self),
      ih fun b later => others b (List.mem_cons_of_mem _ later), List.cons_append]

theorem percentDecode_of_encodesByte (encodes : EncodesByte b part) :
    percentDecode (utf8Encode part ++ rest) = b :: percentDecode rest := by
  obtain ⟨high, low, rfl, isHigh, isLow⟩ := encodes
  have ascii : utf8Encode ['%', high, low] = [0x25, high.toNat, low.toNat] := by
    simp only [utf8Encode, List.flatMap_cons, List.flatMap_nil,
      encodeChar_of_ascii (isAscii_of_hexValue? isHigh),
      encodeChar_of_ascii (isAscii_of_hexValue? isLow)]
    rfl
  have whole : 16 * (b / 16) + b % 16 = b := Nat.div_add_mod b 16
  rw [ascii, List.cons_append, List.cons_append, List.cons_append, percentDecode, if_pos rfl]
  simp only [hexDigit?_toNat, isHigh, isLow, whole, List.nil_append]

theorem percentDecode_of_encodesBytes {parts : List (List Char)}
    (encodes : List.Forall₂ EncodesByte bytes parts) :
    percentDecode (utf8Encode parts.flatten ++ rest) = bytes ++ percentDecode rest := by
  induction encodes with
  | nil => rfl
  | cons first _ ih =>
    rw [List.flatten_cons, utf8Encode, List.flatMap_append, ← utf8Encode, ← utf8Encode,
      List.append_assoc, percentDecode_of_encodesByte first, ih, List.cons_append]

theorem percentDecode_of_encodesChar (encodes : EncodesChar c part) :
    percentDecode (utf8Encode part ++ rest) = encodeChar c ++ percentDecode rest := by
  cases encodes with
  | plain other =>
    rw [utf8Encode, List.flatMap_singleton]
    exact percentDecode_append_of_ne fun b => ne_percent_of_mem_encodeChar other
  | bytes encodes => exact percentDecode_of_encodesBytes encodes

theorem percentDecode_of_encodes (encodes : Encodes name text) :
    percentDecode (utf8Encode text) = utf8Encode name := by
  induction encodes with
  | nil => rfl
  | cons first _ ih =>
    rw [utf8Encode, List.flatMap_append, ← utf8Encode, ← utf8Encode,
      percentDecode_of_encodesChar first, ih, utf8Encode, utf8Encode, List.flatMap_cons]

/-- Whatever percent-encodes a text is decoded to it. -/
theorem percentDecodeText_of_encodes {name : String} (encodes : Encodes name.toList text) :
    percentDecodeText (String.ofList text) = name := by
  rw [percentDecodeText, String.toList_ofList, percentDecode_of_encodes encodes,
    utf8Decode_utf8Encode, String.ofList_toList]

end ApiContract.Text

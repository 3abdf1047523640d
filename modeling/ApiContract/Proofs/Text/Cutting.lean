import ApiContract.Proofs.Text.Percent

/-!
Where percent-encoded text can be cut.

A byte of ASCII never belongs to a longer character, and a byte that is no hexadecimal digit never
belongs to an escape that began before it. So decoding can be cut before any way to write a
character of ASCII that is no digit. Conversely, such a character comes up in the decoded text only
where it is written.
-/

namespace ApiContract.Text

def decoded (text : List Char) : List Char := utf8Decode (percentDecode (utf8Encode text))

theorem percentDecodeText_ofList (text : List Char) :
    percentDecodeText (String.ofList text) = String.ofList (decoded text) := by
  rw [percentDecodeText, String.toList_ofList, decoded]

variable {b x n value low high : Nat} {bs cs rest : List Nat}

theorem continued_append (ascii : b < 0x80) :
    continued n value (bs ++ b :: cs) =
      ((continued n value bs).1, (continued n value bs).2 ++ b :: cs) := by
  induction n generalizing value bs with
  | zero => simp only [continued]
  | succ n ih =>
    cases bs with
    | nil =>
      have stops : isContinuation b = false := by
        simp only [isContinuation, Bool.and_eq_false_iff, decide_eq_false_iff_not]
        omega
      simp [continued, stops]
    | cons c bs =>
      rw [List.cons_append, continued, continued]
      split
      · exact ih
      · rfl

theorem leading?_eq_some (leads : leading? x = some (n, low, high)) :
    0x80 ≤ low ∧ high ≤ 0xBF ∧
      (n = 1 ∧ 0xC2 ≤ x ∧ x ≤ 0xDF ∨ n = 2 ∧ x = 0xE0 ∧ low = 0xA0 ∨ n = 2 ∧ 0xE1 ≤ x ∧ x ≤ 0xEF ∨
        n = 3 ∧ x = 0xF0 ∧ low = 0x90 ∨ n = 3 ∧ 0xF1 ≤ x ∧ x ≤ 0xF4) := by
  unfold leading? at leads
  split_ifs at leads
  all_goals
    simp only [Option.some.injEq, Prod.mk.injEq] at leads
    omega

theorem decodeHead_append (ascii : b < 0x80) :
    decodeHead x (bs ++ b :: cs) = ((decodeHead x bs).1, (decodeHead x bs).2 ++ b :: cs) := by
  unfold decodeHead
  split
  · rfl
  cases leads : leading? x with
  | none => rfl
  | some leading =>
    obtain ⟨n, low, high⟩ := leading
    cases bs with
    | nil =>
      have least := (leading?_eq_some leads).1
      simp only [List.nil_append]
      rw [if_neg (by omega)]
    | cons c bs =>
      simp only [List.cons_append]
      split
      · rw [continued_append ascii]
        obtain ⟨read, rest⟩ := continued (n - 1) (x % Nat.pow 2 (6 - n) * 0x40 + c % 0x40) bs
        cases read <;> rfl
      · rfl

theorem utf8Decode_append (ascii : b < 0x80) :
    utf8Decode (bs ++ b :: cs) = utf8Decode bs ++ Char.ofNat b :: utf8Decode cs := by
  induction bs using utf8Decode.induct with
  | case1 =>
    rw [List.nil_append, utf8Decode, utf8Decode, List.nil_append, decodeHead, if_pos ascii]
  | case2 x bs ih =>
    rw [List.cons_append, utf8Decode, utf8Decode, decodeHead_append ascii, ih, List.cons_append]

def BeginsWithDigits (bs : List Nat) : Prop :=
  ∃ c d rest, bs = c :: d :: rest ∧ (hexDigit? c).isSome ∧ (hexDigit? d).isSome

theorem percentDecode_escape {c d high low : Nat} (isHigh : hexDigit? c = some high)
    (isLow : hexDigit? d = some low) :
    percentDecode (0x25 :: c :: d :: rest) = (16 * high + low) :: percentDecode rest := by
  rw [percentDecode, if_pos rfl]
  simp only [isHigh, isLow]

theorem percentDecode_plain (plain : b = 0x25 → ¬BeginsWithDigits bs) :
    percentDecode (b :: bs) = b :: percentDecode bs := by
  match bs with
  | [] => rfl
  | [_] => rfl
  | c :: d :: rest =>
    rw [percentDecode]
    split
    · next sign =>
      split
      · next high low isHigh isLow =>
        exact absurd ⟨c, d, rest, rfl, by simp [isHigh], by simp [isLow]⟩ (plain sign)
      · rfl
    · rfl

theorem beginsWithDigits_append_iff (notDigit : hexDigit? b = none) :
    BeginsWithDigits (bs ++ b :: cs) ↔ BeginsWithDigits bs := by
  unfold BeginsWithDigits
  match bs with
  | [] => simp [notDigit]
  | [c] => simp [notDigit]
  | c :: d :: rest => simp

theorem percentDecode_append (notDigit : hexDigit? b = none) (bs : List Nat) :
    percentDecode (bs ++ b :: cs) = percentDecode bs ++ percentDecode (b :: cs) := by
  match bs with
  | [] => rfl
  | x :: bs =>
    by_cases escape : x = 0x25 ∧ BeginsWithDigits bs
    · obtain ⟨rfl, c, d, rest, rfl, isHigh, isLow⟩ := escape
      obtain ⟨high, isHigh⟩ := Option.isSome_iff_exists.mp isHigh
      obtain ⟨low, isLow⟩ := Option.isSome_iff_exists.mp isLow
      simp only [List.cons_append, percentDecode_escape isHigh isLow]
      rw [percentDecode_append notDigit rest]
    · have plain : x = 0x25 → ¬BeginsWithDigits bs := fun sign digits => escape ⟨sign, digits⟩
      have plainToo : x = 0x25 → ¬BeginsWithDigits (bs ++ b :: cs) := by
        rwa [beginsWithDigits_append_iff notDigit]
      rw [List.cons_append, percentDecode_plain plain, percentDecode_plain plainToo,
        percentDecode_append notDigit bs, List.cons_append]
termination_by bs.length

variable {c : Char} {part text before after : List Char}

theorem utf8Encode_append (before after : List Char) :
    utf8Encode (before ++ after) = utf8Encode before ++ utf8Encode after :=
  List.flatMap_append

theorem utf8Encode_cons (c : Char) (text : List Char) :
    utf8Encode (c :: text) = encodeChar c ++ utf8Encode text :=
  List.flatMap_cons

theorem decoded_cons (encodes : EncodesChar c part) :
    decoded (part ++ after) = c :: decoded after := by
  rw [decoded, utf8Encode_append, percentDecode_of_encodesChar encodes, utf8Decode_encodeChar,
    decoded]

theorem forms_of_encodesChar (encodes : EncodesChar c part) (ascii : c.toNat < 0x80) :
    part = [c] ∨ ∃ high low, part = ['%', high, low] ∧
      (hexValue? high).isSome ∧ (hexValue? low).isSome := by
  cases encodes with
  | plain => exact .inl rfl
  | bytes encodes =>
    rw [encodeChar_of_ascii ascii] at encodes
    obtain ⟨_, _, ⟨high, low, rfl, isHigh, isLow⟩, rest, rfl⟩ :=
      List.forall₂_cons_left_iff.mp encodes
    obtain rfl := List.forall₂_nil_left_iff.mp rest
    exact .inr ⟨high, low, by simp, by simp [isHigh], by simp [isLow]⟩

theorem exists_cons_of_encodesChar (encodes : EncodesChar c part) (ascii : c.toNat < 0x80)
    (notDigit : hexValue? c = none) :
    ∃ b bytes, utf8Encode part = b :: bytes ∧ hexDigit? b = none := by
  rcases forms_of_encodesChar encodes ascii with rfl | ⟨high, low, rfl, -, -⟩
  · refine ⟨c.toNat, [], ?_, by rw [hexDigit?_toNat, notDigit]⟩
    rw [utf8Encode, List.flatMap_singleton, encodeChar_of_ascii ascii]
  · exact ⟨0x25, _, rfl, by decide⟩

theorem decoded_append (before after : List Char) (encodes : EncodesChar c part)
    (ascii : c.toNat < 0x80) (notDigit : hexValue? c = none) :
    decoded (before ++ (part ++ after)) = decoded before ++ c :: decoded after := by
  obtain ⟨b, bytes, begins, notDigit⟩ := exists_cons_of_encodesChar encodes ascii notDigit
  have read : percentDecode (utf8Encode part ++ utf8Encode after) =
      encodeChar c ++ percentDecode (utf8Encode after) := percentDecode_of_encodesChar encodes
  rw [begins, encodeChar_of_ascii ascii, List.cons_append, List.singleton_append] at read
  rw [decoded, utf8Encode_append, utf8Encode_append, begins, List.cons_append,
    percentDecode_append notDigit, read, utf8Decode_append ascii, Char.ofNat_toNat]
  rfl

theorem continued_suffix (n value : Nat) (bs : List Nat) : (continued n value bs).2 <:+ bs := by
  induction n generalizing value bs with
  | zero => exact List.suffix_refl bs
  | succ n ih =>
    cases bs with
    | nil => exact List.suffix_refl []
    | cons b bs =>
      rw [continued]
      split
      · exact (ih _ bs).trans (List.suffix_cons b bs)
      · exact List.suffix_refl _

theorem decodeHead_suffix (x : Nat) (bs : List Nat) : (decodeHead x bs).2 <:+ bs := by
  unfold decodeHead
  split
  · exact List.suffix_refl bs
  cases leading? x with
  | none => exact List.suffix_refl bs
  | some leading =>
    obtain ⟨n, low, high⟩ := leading
    cases bs with
    | nil => exact List.suffix_refl []
    | cons c bs =>
      simp only
      split
      · have continues := continued_suffix (n - 1) (x % Nat.pow 2 (6 - n) * 0x40 + c % 0x40) bs
        generalize continued (n - 1) (x % Nat.pow 2 (6 - n) * 0x40 + c % 0x40) bs = result at continues ⊢
        obtain ⟨read, rest⟩ := result
        cases read <;> exact continues.trans (List.suffix_cons c bs)
      · exact List.suffix_refl _

theorem le_of_continued {result : Nat} (reads : (continued n value bs).1 = some result) :
    value * Nat.pow 0x40 n ≤ result := by
  induction n generalizing value bs with
  | zero =>
    obtain rfl : value = result := Option.some.inj reads
    exact Nat.le_of_eq (Nat.mul_one value)
  | succ n ih =>
    cases bs with
    | nil => cases reads
    | cons b bs =>
      rw [continued] at reads
      split at reads
      · have more := ih reads
        have step : value * 0x40 * Nat.pow 0x40 n ≤
            (value * 0x40 + b % 0x40) * Nat.pow 0x40 n :=
          Nat.mul_le_mul_right _ (Nat.le_add_right _ _)
        have regroup : value * Nat.pow 0x40 (n + 1) = value * 0x40 * Nat.pow 0x40 n := by
          rw [Nat.pow_eq, Nat.pow_succ', ← Nat.mul_assoc, Nat.pow_eq]
        rw [regroup]
        exact Nat.le_trans step more
      · cases reads

theorem le_of_leading? {c value : Nat} (leads : leading? x = some (n, low, high))
    (inRange : low ≤ c ∧ c ≤ high)
    (reads : (continued (n - 1) (x % Nat.pow 2 (6 - n) * 0x40 + c % 0x40) bs).1 = some value) :
    0x80 ≤ value := by
  have least := le_of_continued reads
  simp only [Nat.pow_eq] at least
  obtain ⟨-, highest, forms⟩ := leading?_eq_some leads
  rcases forms with ⟨rfl, _⟩ | ⟨rfl, rfl, rfl⟩ | ⟨rfl, _⟩ | ⟨rfl, rfl, rfl⟩ | ⟨rfl, _⟩ <;> omega

theorem toNat_ofNat_eq (some : 0 < (Char.ofNat n).toNat) : (Char.ofNat n).toNat = n := by
  by_cases valid : n.isValidChar
  · rw [Char.ofNat, dif_pos valid]
    rfl
  · rw [Char.ofNat, dif_neg valid] at some
    exact absurd some (by decide)

theorem eq_of_decodeHead (reads : (decodeHead x bs).1 = c) (some : 0 < c.toNat)
    (ascii : c.toNat < 0x80) : x = c.toNat ∧ (decodeHead x bs).2 = bs := by
  have notReplaced : replacement ≠ c := by
    rintro rfl
    exact absurd ascii (by decide)
  unfold decodeHead at reads ⊢
  split at reads
  · next short =>
    rw [if_pos short]
    subst reads
    exact ⟨(toNat_ofNat_eq some).symm, rfl⟩
  cases leads : leading? x with
  | none => exact absurd (by simpa [leads] using reads) notReplaced
  | some leading =>
    obtain ⟨n, low, high⟩ := leading
    cases bs with
    | nil => exact absurd (by simpa [leads] using reads) notReplaced
    | cons d bs =>
      simp only [leads] at reads
      split at reads
      · next inRange =>
        have least (value : Nat) (continues : (continued (n - 1) (x % Nat.pow 2 (6 - n) * 0x40 + d % 0x40)
            bs).1 = Option.some value) : 0x80 ≤ value :=
          le_of_leading? leads inRange continues
        generalize continued (n - 1) (x % Nat.pow 2 (6 - n) * 0x40 + d % 0x40) bs = result at reads least
        obtain ⟨read, rest⟩ := result
        cases read with
        | none => exact absurd reads notReplaced
        | some value =>
          obtain rfl : Char.ofNat value = c := reads
          have same := toNat_ofNat_eq some
          have beyond := least value rfl
          omega
      · exact absurd reads notReplaced

theorem mem_of_mem_utf8Decode (isChar : c ∈ utf8Decode bs) (some : 0 < c.toNat)
    (ascii : c.toNat < 0x80) : c.toNat ∈ bs := by
  induction bs using utf8Decode.induct with
  | case1 =>
    rw [utf8Decode] at isChar
    cases isChar
  | case2 x bs ih =>
    rw [utf8Decode] at isChar
    rcases List.mem_cons.mp isChar with head | later
    · rw [(eq_of_decodeHead head.symm some ascii).1]
      exact List.mem_cons_self
    · exact List.mem_cons_of_mem x ((decodeHead_suffix x bs).subset (ih later))

theorem eq_of_utf8Decode_eq_cons {cs : List Char} (reads : utf8Decode bs = c :: cs)
    (some : 0 < c.toNat) (ascii : c.toNat < 0x80) :
    ∃ rest, bs = c.toNat :: rest ∧ utf8Decode rest = cs := by
  cases bs with
  | nil =>
    rw [utf8Decode] at reads
    cases reads
  | cons x bs =>
    rw [utf8Decode] at reads
    obtain ⟨head, later⟩ := List.cons.inj reads
    obtain ⟨rfl, same⟩ := eq_of_decodeHead head some ascii
    exact ⟨bs, rfl, same ▸ later⟩

theorem utf8Encode_eq_cons (encoded : utf8Encode text = b :: bs) (ascii : b < 0x80) :
    ∃ c rest, text = c :: rest ∧ c.toNat = b ∧ utf8Encode rest = bs := by
  cases text with
  | nil => cases encoded
  | cons c rest =>
    obtain ⟨x, bytes, isHead, -⟩ := decodeHead_encodeChar c []
    rw [utf8Encode_cons, isHead, List.cons_append] at encoded
    obtain ⟨rfl, later⟩ := List.cons.inj encoded
    have short : c.toNat < 0x80 := by
      by_contra long
      unfold encodeChar at isHead
      rw [if_neg long] at isHead
      split_ifs at isHead <;>
      · have head := (List.cons.inj isHead).1
        omega
    rw [encodeChar_of_ascii short] at isHead
    obtain ⟨same, rfl⟩ := List.cons.inj isHead
    exact ⟨c, rest, rfl, same, later⟩

theorem eq_of_mem_encodeChar {d : Char} (isByte : c.toNat ∈ encodeChar d)
    (ascii : c.toNat < 0x80) : c = d := by
  unfold encodeChar at isByte
  simp only at isByte
  split_ifs at isByte
  · exact Char.toNat_inj.mp (List.mem_singleton.mp isByte)
  all_goals
    simp only [List.mem_cons, List.not_mem_nil, or_false] at isByte
    omega

theorem hexValue?_lt (isDigit : hexValue? c = some n) : n < 16 := by
  unfold hexValue? at isDigit
  split_ifs at isDigit with digit lower upper
  · have most : c.toNat ≤ 57 := digit.2
    have same : c.toNat - 48 = n := Option.some.inj isDigit
    omega
  · have most : c.toNat ≤ 102 := lower.2
    have same : c.toNat - 97 + 10 = n := Option.some.inj isDigit
    omega
  · have most : c.toNat ≤ 70 := upper.2
    have same : c.toNat - 65 + 10 = n := Option.some.inj isDigit
    omega

theorem exists_digit (isDigit : (hexDigit? b).isSome) :
    b < 0x80 ∧ ∃ n < 16, hexDigit? b = some n := by
  obtain ⟨n, isDigit⟩ := Option.isSome_iff_exists.mp isDigit
  have notNul : (Char.ofNat b).toNat ≠ 0 := by
    intro isNul
    have nul : Char.ofNat b = '\x00' := Char.toNat_inj.mp isNul
    rw [hexDigit?, nul] at isDigit
    cases isDigit
  have ascii := isAscii_of_hexValue? isDigit
  rw [toNat_ofNat_eq (Nat.pos_of_ne_zero notNul)] at ascii
  exact ⟨ascii, n, hexValue?_lt isDigit, isDigit⟩

/-- A percent sign writes a byte together with two digits behind it, and itself otherwise. -/
theorem percentDecode_sign (text : List Char) :
    (∃ high low after b, text = high :: low :: after ∧ EncodesByte b ['%', high, low] ∧
      percentDecode (utf8Encode ('%' :: text)) = b :: percentDecode (utf8Encode after)) ∨
    percentDecode (utf8Encode ('%' :: text)) = 0x25 :: percentDecode (utf8Encode text) := by
  by_cases digits : BeginsWithDigits (utf8Encode text)
  · left
    obtain ⟨_, _, rest, encoded, isHigh, isLow⟩ := digits
    obtain ⟨shortHigh, h, -, isHigh⟩ := exists_digit isHigh
    obtain ⟨shortLow, l, small, isLow⟩ := exists_digit isLow
    obtain ⟨high, text, rfl, rfl, behind⟩ := utf8Encode_eq_cons encoded shortHigh
    obtain ⟨low, after, rfl, rfl, rfl⟩ := utf8Encode_eq_cons behind shortLow
    rw [hexDigit?_toNat] at isHigh isLow
    have byte : EncodesByte (16 * h + l) ['%', high, low] := by
      refine ⟨high, low, rfl, ?_, ?_⟩
      · rw [isHigh, Option.some_inj]
        omega
      · rw [isLow, Option.some_inj]
        omega
    have read : percentDecode (utf8Encode ['%', high, low] ++ utf8Encode after) =
        (16 * h + l) :: percentDecode (utf8Encode after) := percentDecode_of_encodesByte byte
    rw [← utf8Encode_append] at read
    exact ⟨high, low, after, _, rfl, byte, read⟩
  · right
    exact percentDecode_plain fun _ => digits

theorem encodesChar_of_encodesByte (byte : EncodesByte c.toNat part) (ascii : c.toNat < 0x80) :
    EncodesChar c part := by
  have parts : List.Forall₂ EncodesByte (encodeChar c) [part] := by
    rw [encodeChar_of_ascii ascii]
    exact .cons byte .nil
  simpa using EncodesChar.bytes parts

theorem exists_part_of_head {cs : List Char} (reads : decoded text = c :: cs) (some : 0 < c.toNat)
    (ascii : c.toNat < 0x80) (notSign : c ≠ '%') :
    ∃ part after, text = part ++ after ∧ EncodesChar c part := by
  cases text with
  | nil =>
    rw [decoded, utf8Encode, List.flatMap_nil, percentDecode, utf8Decode] at reads
    cases reads
  | cons d text =>
    by_cases isSign : d = '%'
    · subst isSign
      obtain ⟨rest, reads, -⟩ := eq_of_utf8Decode_eq_cons reads some ascii
      rcases percentDecode_sign text with ⟨high, low, after, b, rfl, byte, head⟩ | head
      · rw [head] at reads
        obtain ⟨rfl, -⟩ := List.cons.inj reads
        exact ⟨_, after, rfl, encodesChar_of_encodesByte byte ascii⟩
      · rw [head] at reads
        exact absurd (Char.toNat_inj.mp (List.cons.inj reads).1.symm) notSign
    · have first : decoded (d :: text) = d :: decoded text := decoded_cons (.plain isSign)
      rw [first] at reads
      obtain ⟨rfl, -⟩ := List.cons.inj reads
      exact ⟨[d], text, rfl, .plain isSign⟩

/-- A character of ASCII other than the percent sign comes up where it is written. -/
theorem exists_part_of_mem {text : List Char}
    (isChar : c.toNat ∈ percentDecode (utf8Encode text)) (ascii : c.toNat < 0x80)
    (notSign : c ≠ '%') :
    ∃ before part after, text = before ++ (part ++ after) ∧ EncodesChar c part := by
  match text with
  | [] => cases isChar
  | d :: text =>
    by_cases isSign : d = '%'
    · subst isSign
      rcases percentDecode_sign text with ⟨high, low, rest, b, rfl, byte, step⟩ | step
      · rw [step] at isChar
        rcases List.mem_cons.mp isChar with rfl | later
        · exact ⟨[], _, rest, rfl, encodesChar_of_encodesByte byte ascii⟩
        · obtain ⟨before, part, after, rfl, encodes⟩ := exists_part_of_mem later ascii notSign
          exact ⟨'%' :: high :: low :: before, part, after, rfl, encodes⟩
      · rw [step] at isChar
        rcases List.mem_cons.mp isChar with same | later
        · exact absurd (Char.toNat_inj.mp same) notSign
        · obtain ⟨before, part, after, rfl, encodes⟩ := exists_part_of_mem later ascii notSign
          exact ⟨'%' :: before, part, after, rfl, encodes⟩
    · have read : percentDecode (utf8Encode [d] ++ utf8Encode text) =
          encodeChar d ++ percentDecode (utf8Encode text) :=
        percentDecode_of_encodesChar (.plain isSign)
      rw [← utf8Encode_append, List.singleton_append] at read
      rw [read] at isChar
      rcases List.mem_append.mp isChar with here | later
      · obtain rfl : c = d := eq_of_mem_encodeChar here ascii
        exact ⟨[], [c], text, rfl, .plain isSign⟩
      · obtain ⟨before, part, after, rfl, encodes⟩ := exists_part_of_mem later ascii notSign
        exact ⟨d :: before, part, after, rfl, encodes⟩
termination_by text.length

end ApiContract.Text

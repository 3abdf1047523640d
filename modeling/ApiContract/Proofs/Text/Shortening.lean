import ApiContract.Proofs.Document.Escapes

/-!
Decoded texts are no longer than what they are decoded from.

An escape of three characters gives one byte, and a byte gives one character at most: a byte that
is cut off from the character it continues is replaced by itself, so taking bytes away from the
front of such a run never leaves more characters behind.
-/

namespace ApiContract

namespace Text

variable {b : Nat} {bs dropped : List Nat}

theorem utf8Decode_of_isContinuation (continues : isContinuation b = true) :
    utf8Decode (b :: bs) = replacement :: utf8Decode bs := by
  have inRange : 0x80 ≤ b ∧ b ≤ 0xBF := by simpa [isContinuation] using continues
  have leads : leading? b = none := by
    unfold leading?
    split_ifs <;> first | rfl | omega
  have head : decodeHead b bs = (replacement, bs) := by
    rw [decodeHead, if_neg (by omega), leads]
  rw [utf8Decode, head]

theorem length_utf8Decode_le_append (each : ∀ b ∈ dropped, isContinuation b = true) :
    (utf8Decode bs).length ≤ (utf8Decode (dropped ++ bs)).length := by
  induction dropped with
  | nil => exact Nat.le_refl _
  | cons b dropped ih =>
    obtain ⟨first, others⟩ := List.forall_mem_cons.mp each
    rw [List.cons_append, utf8Decode_of_isContinuation first, List.length_cons]
    exact Nat.le_succ_of_le (ih others)

/-- The bytes that are read onto a code point are continuation bytes. -/
theorem exists_append_continued (n value : Nat) (bs : List Nat) :
    ∃ dropped, bs = dropped ++ (continued n value bs).2 ∧
      ∀ b ∈ dropped, isContinuation b = true := by
  induction n generalizing value bs with
  | zero => exact ⟨[], by simp [continued]⟩
  | succ n ih =>
    cases bs with
    | nil => exact ⟨[], by simp [continued]⟩
    | cons b bs =>
      rw [continued]
      split
      · next continues =>
        obtain ⟨dropped, joined, each⟩ := ih (value * 0x40 + b % 0x40) bs
        exact ⟨b :: dropped, by rw [List.cons_append, ← joined],
          List.forall_mem_cons.mpr ⟨continues, each⟩⟩
      · exact ⟨[], by simp⟩

theorem exists_append_decodeHead (x : Nat) (bs : List Nat) :
    ∃ dropped, bs = dropped ++ (decodeHead x bs).2 ∧ ∀ b ∈ dropped, isContinuation b = true := by
  unfold decodeHead
  split
  · exact ⟨[], by simp⟩
  cases leads : leading? x with
  | none => exact ⟨[], by simp⟩
  | some leading =>
    obtain ⟨n, low, high⟩ := leading
    cases bs with
    | nil => exact ⟨[], by simp⟩
    | cons c bs =>
      simp only
      split
      · next inRange =>
        obtain ⟨least, most, -⟩ := leading?_eq_some leads
        have continues : isContinuation c = true := by
          simp only [isContinuation, Bool.and_eq_true, decide_eq_true_eq]
          omega
        obtain ⟨dropped, joined, each⟩ :=
          exists_append_continued (n - 1) (x % Nat.pow 2 (6 - n) * 0x40 + c % 0x40) bs
        generalize continued (n - 1) (x % Nat.pow 2 (6 - n) * 0x40 + c % 0x40) bs = result at joined ⊢
        obtain ⟨read, rest⟩ := result
        refine ⟨c :: dropped, ?_, List.forall_mem_cons.mpr ⟨continues, each⟩⟩
        cases read <;> rw [List.cons_append, joined]
      · exact ⟨[], by simp⟩

theorem length_utf8Decode_cons_le (b : Nat) (bs : List Nat) :
    (utf8Decode (b :: bs)).length ≤ (utf8Decode bs).length + 1 := by
  obtain ⟨dropped, joined, each⟩ := exists_append_decodeHead b bs
  have fewer : (utf8Decode (decodeHead b bs).2).length ≤ (utf8Decode bs).length := by
    conv_rhs => rw [joined]
    exact length_utf8Decode_le_append each
  rw [utf8Decode, List.length_cons]
  exact Nat.succ_le_succ fewer

/-- Percent-decoding makes no text longer. -/
theorem length_decoded_le (text : List Char) : (decoded text).length ≤ text.length := by
  match text with
  | [] => simp [decoded, utf8Encode, percentDecode, utf8Decode]
  | c :: text =>
    by_cases isSign : c = '%'
    · subst isSign
      rcases percentDecode_sign text with ⟨high, low, after, b, rfl, -, read⟩ | read
      · have shorter := length_decoded_le after
        have head := length_utf8Decode_cons_le b (percentDecode (utf8Encode after))
        rw [decoded] at shorter ⊢
        rw [read]
        simp only [List.length_cons]
        omega
      · have shorter := length_decoded_le text
        have head := length_utf8Decode_cons_le 0x25 (percentDecode (utf8Encode text))
        rw [decoded] at shorter ⊢
        rw [read, List.length_cons]
        omega
    · have head : decoded ([c] ++ text) = c :: decoded text := decoded_cons (.plain isSign)
      rw [List.singleton_append] at head
      rw [head, List.length_cons, List.length_cons]
      exact Nat.succ_le_succ (length_decoded_le text)
termination_by text.length

end Text

namespace Reference

theorem length_replaceEscape_le (digit by_ : Char) (cs : List Char) :
    (replaceEscape digit by_ cs).length ≤ cs.length := by
  fun_induction replaceEscape digit by_ cs with
  | case1 cs shorter =>
    simp only [List.length_cons]
    omega
  | case2 c cs _ shorter => exact Nat.succ_le_succ shorter
  | case3 c cs _ shorter => exact Nat.succ_le_succ shorter
  | case4 => exact Nat.le_refl _

theorem length_decodeSegment_le (segment : List Char) :
    (decodeSegment segment).toList.length ≤ segment.length := by
  rw [decodeSegment, Text.percentDecodeText_ofList, String.toList_ofList]
  calc (Text.decoded (replaceEscape '0' '~' (replaceEscape '1' '/' segment))).length
    _ ≤ (replaceEscape '0' '~' (replaceEscape '1' '/' segment)).length := Text.length_decoded_le _
    _ ≤ (replaceEscape '1' '/' segment).length := length_replaceEscape_le _ _ _
    _ ≤ segment.length := length_replaceEscape_le _ _ _

end Reference

end ApiContract

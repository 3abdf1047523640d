import ApiContract.Proofs.Document.Spelling
import ApiContract.Proofs.Text.Cutting

/-!
The two orders of undoing what a segment of a pointer is written with.

A fragment is percent-decoded first, and then the escapes of the pointer in it are undone. Reading a
segment does this the other way round. Both orders give the same name unless percent-encoding hides
an escape: a tilde or the digit behind it is written by its byte. Such an escape is left in the
name.
-/

namespace ApiContract.Reference

open Text (EncodesChar decoded)

/-- What an escape with a digit stands for. -/
def escaped? (d : Char) : Option Char :=
  if d = '0' then some '~' else if d = '1' then some '/' else none

/-- Undoes all escapes in one pass. -/
def unescape : List Char → List Char
  | '~' :: d :: cs =>
    match escaped? d with
    | some c => c :: unescape cs
    | none => '~' :: unescape (d :: cs)
  | c :: cs => c :: unescape cs
  | [] => []

variable {c d x : Char} {cs before after part segment tilde digit : List Char}

theorem unescape_escape (isEscape : escaped? d = some c) :
    unescape ('~' :: d :: cs) = c :: unescape cs := by
  rw [unescape, isEscape]

theorem unescape_tilde (noEscape : ∀ d, cs.head? = some d → escaped? d = none) :
    unescape ('~' :: cs) = '~' :: unescape cs := by
  cases cs with
  | nil => rfl
  | cons d cs => rw [unescape, noEscape d rfl]

theorem unescape_cons_of_ne (other : c ≠ '~') : unescape (c :: cs) = c :: unescape cs := by
  rw [unescape]
  exact fun _ _ tilde => absurd tilde other

theorem unescape_append_of_not_mem (free : '~' ∉ part) :
    unescape (part ++ cs) = part ++ unescape cs := by
  induction part with
  | nil => rfl
  | cons c part ih =>
    obtain ⟨other, later⟩ := not_or.mp (mt List.mem_cons.mpr free)
    rw [List.cons_append, unescape_cons_of_ne (Ne.symm other), ih later, List.cons_append]

theorem unescape_eq_self (free : '~' ∉ cs) : unescape cs = cs := by
  have whole : unescape (cs ++ []) = cs ++ unescape [] := unescape_append_of_not_mem free
  simpa [unescape] using whole

theorem unescape_append (notDigit : escaped? c = none) (before : List Char) :
    unescape (before ++ c :: cs) = unescape before ++ unescape (c :: cs) := by
  match before with
  | [] => rfl
  | x :: before =>
    by_cases isTilde : x = '~'
    · subst isTilde
      cases before with
      | nil =>
        rw [List.cons_append, List.nil_append, unescape_tilde (by simpa using notDigit)]
        rfl
      | cons d before =>
        cases isEscape : escaped? d with
        | some r =>
          rw [List.cons_append, List.cons_append, unescape_escape isEscape,
            unescape_escape isEscape, unescape_append notDigit before, List.cons_append]
        | none =>
          rw [List.cons_append, unescape_tilde (by simpa using isEscape),
            unescape_tilde (by simpa using isEscape), unescape_append notDigit (d :: before),
            List.cons_append]
    · rw [List.cons_append, unescape_cons_of_ne isTilde, unescape_cons_of_ne isTilde,
        unescape_append notDigit before, List.cons_append]
termination_by before.length

theorem replaceEscape_tilde {sign by_ : Char} (noEscape : cs.head? ≠ some sign) :
    replaceEscape sign by_ ('~' :: cs) = '~' :: replaceEscape sign by_ cs := by
  cases cs with
  | nil => rfl
  | cons d cs => exact replaceEscape_other (by simpa using noEscape)

theorem head?_replaceEscape (sign by_ d : Char) (cs : List Char) :
    (replaceEscape sign by_ (d :: cs)).head? = some d ∨
      (replaceEscape sign by_ (d :: cs)).head? = some by_ := by
  by_cases isTilde : d = '~'
  · subst isTilde
    by_cases isEscape : cs.head? = some sign
    · obtain ⟨rest, rfl⟩ := List.head?_eq_some_iff.mp isEscape
      exact .inr (by rw [replaceEscape_escape, List.head?_cons])
    · exact .inl (by rw [replaceEscape_tilde isEscape, List.head?_cons])
  · exact .inl (by rw [replaceEscape_cons_of_ne isTilde, List.head?_cons])

/-- Undoing the escapes of the slash and then those of the tilde undoes all. -/
theorem replaceEscape_replaceEscape (cs : List Char) :
    replaceEscape '0' '~' (replaceEscape '1' '/' cs) = unescape cs := by
  match cs with
  | [] => rfl
  | c :: cs =>
    by_cases isTilde : c = '~'
    · subst isTilde
      cases cs with
      | nil => rfl
      | cons d cs =>
        by_cases slash : d = '1'
        · subst slash
          rw [replaceEscape_escape, replaceEscape_cons_of_ne (by decide),
            replaceEscape_replaceEscape cs, unescape_escape rfl]
        by_cases tilde : d = '0'
        · subst tilde
          rw [replaceEscape_other (by decide), replaceEscape_cons_of_ne (c := '0') (by decide),
            replaceEscape_escape, replaceEscape_replaceEscape cs, unescape_escape rfl]
        have noEscape : escaped? d = none := by simp [escaped?, slash, tilde]
        have kept : (replaceEscape '1' '/' (d :: cs)).head? ≠ some '0' := by
          rcases head?_replaceEscape '1' '/' d cs with head | head <;> simp [head, tilde]
        rw [replaceEscape_other slash, replaceEscape_tilde kept,
          replaceEscape_replaceEscape (d :: cs), unescape_tilde (by simpa using noEscape)]
    · rw [replaceEscape_cons_of_ne isTilde, replaceEscape_cons_of_ne isTilde,
        replaceEscape_replaceEscape cs, unescape_cons_of_ne isTilde]
termination_by cs.length

/-- The name in a segment of a fragment: it is percent-decoded first, and its escapes are undone
last, those of the slash before those of the tilde. -/
def decodeFragment (segment : List Char) : String :=
  let text := (Text.percentDecodeText (String.ofList segment)).toList
  String.ofList (replaceEscape '0' '~' (replaceEscape '1' '/' text))

theorem decodeSegment_eq (segment : List Char) :
    decodeSegment segment = String.ofList (decoded (unescape segment)) := by
  rw [decodeSegment, replaceEscape_replaceEscape, Text.percentDecodeText_ofList]

theorem decodeFragment_eq (segment : List Char) :
    decodeFragment segment = String.ofList (unescape (decoded segment)) := by
  rw [decodeFragment, replaceEscape_replaceEscape, Text.percentDecodeText_ofList,
    String.toList_ofList]

/-- A tilde and the digit of an escape behind it are written in the segment, but not both as they
are. -/
def HidesEscape (segment : List Char) : Prop :=
  ∃ before tilde d digit after, segment = before ++ (tilde ++ (digit ++ after)) ∧
    EncodesChar '~' tilde ∧ (d = '0' ∨ d = '1') ∧ EncodesChar d digit ∧ tilde ++ digit ≠ ['~', d]

theorem exists_escaped?_iff : (∃ c, escaped? d = some c) ↔ d = '0' ∨ d = '1' := by
  unfold escaped?
  split_ifs <;> simp_all

theorem digit_of_escaped? (isEscape : escaped? d = some c) :
    0 < d.toNat ∧ d.toNat < 0x80 ∧ d ≠ '%' := by
  rcases exists_escaped?_iff.mp ⟨c, isEscape⟩ with rfl | rfl <;> decide

theorem of_escaped? (isEscape : escaped? d = some c) :
    EncodesChar c [c] ∧ c.toNat < 0x80 ∧ Text.hexValue? c = none := by
  unfold escaped? at isEscape
  split_ifs at isEscape <;>
  · obtain rfl := Option.some.inj isEscape
    exact ⟨.plain (by decide), by decide, by decide⟩

theorem decoded_tilde (before after : List Char) (writes : EncodesChar '~' tilde) :
    decoded (before ++ (tilde ++ after)) = decoded before ++ '~' :: decoded after :=
  Text.decoded_append before after writes (by decide) (by decide)

theorem mem_decoded (isChar : '~' ∈ segment) : '~' ∈ decoded segment := by
  obtain ⟨before, after, rfl⟩ := List.append_of_mem isChar
  have cut := decoded_tilde before after (.plain (by decide))
  rw [List.singleton_append] at cut
  rw [cut]
  simp

theorem forms_of_tilde (writes : EncodesChar '~' tilde) :
    tilde = ['~'] ∨ ∃ high low, tilde = ['%', high, low] ∧ '~' ∉ tilde := by
  rcases Text.forms_of_encodesChar writes (by decide) with plain | ⟨high, low, rfl, isHigh, isLow⟩
  · exact .inl plain
  · refine .inr ⟨high, low, rfl, ?_⟩
    have notDigit {x : Char} (isDigit : (Text.hexValue? x).isSome) : '~' ≠ x := by
      rintro rfl
      exact absurd isDigit (by decide)
    simp [notDigit isHigh, notDigit isLow]

theorem exists_cons_of_tilde (writes : EncodesChar '~' tilde) :
    ∃ c rest, tilde = c :: rest ∧ escaped? c = none := by
  rcases forms_of_tilde writes with rfl | ⟨high, low, rfl, -⟩
  · exact ⟨'~', [], rfl, rfl⟩
  · exact ⟨'%', [high, low], rfl, rfl⟩

/-- The first tilde of a decoded segment, where it is written. -/
theorem exists_first_tilde {segment : List Char} (isChar : '~' ∈ decoded segment) :
    ∃ before tilde after, segment = before ++ (tilde ++ after) ∧ EncodesChar '~' tilde ∧
      '~' ∉ decoded before := by
  have isByte := Text.mem_of_mem_utf8Decode isChar (by decide) (by decide)
  obtain ⟨before, tilde, after, rfl, writes⟩ :=
    Text.exists_part_of_mem isByte (by decide) (by decide)
  by_cases earlier : '~' ∈ decoded before
  · have shorter : before.length < (before ++ (tilde ++ after)).length := by
      obtain ⟨c, rest, rfl, -⟩ := exists_cons_of_tilde writes
      simp
    obtain ⟨first, sign, rest, rfl, writes, free⟩ := exists_first_tilde earlier
    exact ⟨first, sign, rest ++ (tilde ++ after), by simp, writes, free⟩
  · exact ⟨before, tilde, after, rfl, writes, earlier⟩
termination_by segment.length

/-- Behind a tilde that is written as it is, an escape ends in a digit that is written as it is. -/
theorem unescape_append_tilde (writes : EncodesChar '~' tilde)
    (noEscape : ∀ d, cs.head? = some d → escaped? d = none) :
    unescape (tilde ++ cs) = tilde ++ unescape cs := by
  rcases forms_of_tilde writes with rfl | ⟨_, _, -, free⟩
  · exact unescape_tilde noEscape
  · exact unescape_append_of_not_mem free

/-- Where no escape is hidden, both orders give the same text. -/
theorem decoded_unescape {segment : List Char} (plain : ¬HidesEscape segment) :
    decoded (unescape segment) = unescape (decoded segment) := by
  by_cases isChar : '~' ∈ decoded segment
  · obtain ⟨before, tilde, after, rfl, writes, free⟩ := exists_first_tilde isChar
    have freeToo : '~' ∉ before := fun isChar => free (mem_decoded isChar)
    have later {rest : List Char} (behind : ∃ part, after = part ++ rest) : ¬HidesEscape rest := by
      rintro ⟨start, sign, d, digit, stop, rfl, signWrites, isDigit, digitWrites, hidden⟩
      obtain ⟨part, rfl⟩ := behind
      exact plain ⟨before ++ (tilde ++ (part ++ start)), sign, d, digit, stop, by simp, signWrites,
        isDigit, digitWrites, hidden⟩
    have shorter : after.length < (before ++ (tilde ++ after)).length := by
      obtain ⟨c, rest, rfl, -⟩ := exists_cons_of_tilde writes
      simp
      omega
    rw [decoded_tilde _ _ writes, unescape_append_of_not_mem free,
      unescape_append_of_not_mem freeToo]
    by_cases escapes : ∃ d cs c, decoded after = d :: cs ∧ escaped? d = some c
    · obtain ⟨d, cs, c, head, isEscape⟩ := escapes
      obtain ⟨some, ascii, notSign⟩ := digit_of_escaped? isEscape
      obtain ⟨digit, rest, rfl, digitWrites⟩ := Text.exists_part_of_head head some ascii notSign
      have shown : tilde ++ digit = ['~', d] := by
        by_contra hidden
        exact plain ⟨before, tilde, d, digit, rest, rfl, writes,
          exists_escaped?_iff.mp ⟨c, isEscape⟩, digitWrites, hidden⟩
      have restShorter : rest.length < (before ++ (tilde ++ (digit ++ rest))).length := by
        simp at shorter ⊢
        omega
      obtain ⟨cWrites, cAscii, cCuts⟩ := of_escaped? isEscape
      have read := Text.decoded_append before (unescape rest) cWrites cAscii cCuts
      rw [Text.decoded_cons digitWrites, unescape_escape isEscape, ← List.append_assoc tilde, shown,
        List.cons_append, List.singleton_append, unescape_escape isEscape,
        ← decoded_unescape (later ⟨digit, rfl⟩)]
      exact read
    · have noEscape (d : Char) (head : (decoded after).head? = some d) : escaped? d = none := by
        obtain ⟨cs, same⟩ := List.head?_eq_some_iff.mp head
        exact Option.eq_none_iff_forall_ne_some.mpr fun c isEscape =>
          escapes ⟨d, cs, c, same, isEscape⟩
      have noEscapeToo (d : Char) (head : after.head? = some d) : escaped? d = none := by
        obtain ⟨rest, rfl⟩ := List.head?_eq_some_iff.mp head
        refine Option.eq_none_iff_forall_ne_some.mpr fun c isEscape => ?_
        obtain ⟨-, -, notSign⟩ := digit_of_escaped? isEscape
        exact escapes ⟨d, decoded rest, c, Text.decoded_cons (.plain notSign), isEscape⟩
      rw [unescape_append_tilde writes noEscapeToo, decoded_tilde _ _ writes,
        unescape_tilde noEscape, decoded_unescape (later ⟨[], rfl⟩)]
  · have free : '~' ∉ segment := fun written => isChar (mem_decoded written)
    rw [unescape_eq_self free, unescape_eq_self isChar]
termination_by segment.length

/-- A hidden escape is left as it is written. -/
theorem unescape_hidden (writes : EncodesChar '~' tilde) (isEscape : escaped? d = some c)
    (digitWrites : EncodesChar d digit) (hidden : tilde ++ digit ≠ ['~', d]) :
    unescape (before ++ (tilde ++ (digit ++ after))) =
      unescape before ++ (tilde ++ (digit ++ unescape after)) := by
  obtain ⟨-, ascii, -⟩ := digit_of_escaped? isEscape
  have kept : unescape (tilde ++ (digit ++ after)) = tilde ++ (digit ++ unescape after) := by
    have free : '~' ∉ digit := by
      rcases exists_escaped?_iff.mp ⟨c, isEscape⟩ with rfl | rfl <;>
        exact not_mem_of_encodesChar digitWrites (by decide) (by decide) (by decide)
    rcases forms_of_tilde writes with rfl | ⟨_, _, -, noTilde⟩
    · rcases Text.forms_of_encodesChar digitWrites ascii with rfl | ⟨high, low, rfl, -, -⟩
      · exact absurd rfl hidden
      · rw [List.singleton_append, unescape_tilde (by simp [escaped?]),
          unescape_append_of_not_mem free, List.singleton_append]
    · rw [unescape_append_of_not_mem noTilde, unescape_append_of_not_mem free]
  obtain ⟨c, rest, rfl, notDigit⟩ := exists_cons_of_tilde writes
  rw [List.cons_append] at kept ⊢
  rw [unescape_append notDigit, kept]

/-- Undoing the escapes last undoes at least as many, and one more where one is hidden. -/
theorem length_unescape_decoded (segment : List Char) :
    (unescape (decoded segment)).length ≤ (decoded (unescape segment)).length ∧
      (HidesEscape segment →
        (unescape (decoded segment)).length < (decoded (unescape segment)).length) := by
  by_cases hides : HidesEscape segment
  · obtain ⟨before, tilde, d, digit, after, rfl, writes, isDigit, digitWrites, hidden⟩ := hides
    obtain ⟨c, isEscape⟩ := exists_escaped?_iff.mpr isDigit
    obtain ⟨x, rest, begins, -⟩ := exists_cons_of_tilde writes
    have shorter : before.length < (before ++ (tilde ++ (digit ++ after))).length := by
      simp [begins]
    have shorterToo : after.length < (before ++ (tilde ++ (digit ++ after))).length := by
      simp [begins]
      omega
    have least := (length_unescape_decoded before).1
    have leastToo := (length_unescape_decoded after).1
    have more : (unescape (decoded (before ++ (tilde ++ (digit ++ after))))).length <
        (decoded (unescape (before ++ (tilde ++ (digit ++ after))))).length := by
      rw [unescape_hidden writes isEscape digitWrites hidden, decoded_tilde _ _ writes,
        decoded_tilde _ _ writes, Text.decoded_cons digitWrites, Text.decoded_cons digitWrites,
        unescape_append rfl, unescape_escape isEscape]
      simp
      omega
    exact ⟨Nat.le_of_lt more, fun _ => more⟩
  · rw [decoded_unescape hides]
    exact ⟨Nat.le_refl _, fun hidden => absurd hidden hides⟩
termination_by segment.length

theorem decodeSegment_eq_decodeFragment_iff (segment : List Char) :
    decodeSegment segment = decodeFragment segment ↔ ¬HidesEscape segment := by
  rw [decodeSegment_eq, decodeFragment_eq, String.ofList_inj]
  constructor
  · intro same hides
    have longer := (length_unescape_decoded segment).2 hides
    rw [same] at longer
    exact Nat.lt_irrefl _ longer
  · exact decoded_unescape

variable {self : Option String} {document marks : List Char} {place : List (List Char)}
  {other : List Char}

/-- A reference to a segment at a place, behind a document and the marks of a pointer. -/
def pointerText (document marks : List Char) (place : List (List Char)) (segment : List Char) :
    String :=
  String.ofList (document ++ marks ++ ['/'].intercalate (place ++ [segment]))

theorem schemaName?_pointerText (isLocal : IsLocal self document) (opening : Opening marks)
    (isPlace : place ∈ sections) (free : '/' ∉ segment) :
    schemaName? (pointerText document marks place segment) self =
      nonempty? (decodeSegment segment) := by
  obtain ⟨fragment, signs⟩ := opening.exists_cons
  let rest := fragment ++ ['/'].intercalate (place ++ [segment])
  have spelled : (pointerText document marks place segment).toList = document ++ '#' :: rest := by
    rw [pointerText, String.toList_ofList, signs, List.append_assoc, List.cons_append]
  have isPointer : pointer? (pointerText document marks place segment).toList self =
      some ('#' :: rest) :=
    pointer?_eq_some_iff.mpr ⟨document, rest, isLocal, spelled, rfl⟩
  have split : segments ('#' :: rest) = place ++ [segment] :=
    (segments_eq_iff isPlace).mpr ⟨free, marks, opening, by rw [signs, List.cons_append]⟩
  have marked : '#' ∈ (pointerText document marks place segment).toList := by
    rw [spelled]
    simp
  apply Option.ext
  intro name
  rw [schemaName?_of_pointer (.inl marked), nonempty?_eq_some_iff]
  constructor
  · rintro ⟨pointer, found, place', -, segment', split', named⟩
    obtain rfl := Option.some.inj (isPointer.symm.trans found)
    have same : segment = segment' :=
      List.head_eq_of_cons_eq (List.append_inj' (split.symm.trans split') rfl).2
    rwa [same]
  · intro named
    exact ⟨'#' :: rest, isPointer, place, isPlace, segment, split, named⟩

theorem nonempty?_inj {name other : String} : nonempty? name = nonempty? other ↔ name = other := by
  constructor
  · intro same
    by_cases none : name = ""
    · rw [none, nonempty?, if_pos rfl] at same
      unfold nonempty? at same
      split_ifs at same with noneToo
      rw [none, noneToo]
    · exact ((nonempty?_eq_some_iff.mp (same ▸ nonempty?_eq_some_iff.mpr ⟨rfl, none⟩)).1).symm
  · exact congrArg nonempty?

/-- Reading a segment gives the name in the fragment exactly when no escape is hidden in it. So
where none is, writing the segment in other ways leaves the schema a reference names as it was,
unless that hides an escape. -/
theorem escapes_undone_iff (segment : List Char) :
    (decodeSegment segment = decodeFragment segment ↔ ¬HidesEscape segment) ∧
      ∀ self document marks place other, IsLocal self document → Opening marks →
        place ∈ sections → '/' ∉ segment → '/' ∉ other →
        Text.percentDecodeText (String.ofList other) =
          Text.percentDecodeText (String.ofList segment) →
        ¬HidesEscape segment →
        (schemaName? (pointerText document marks place other) self =
            schemaName? (pointerText document marks place segment) self ↔
          ¬HidesEscape other) := by
  refine ⟨decodeSegment_eq_decodeFragment_iff segment, ?_⟩
  intro self document marks place other isLocal opening isPlace free freeToo same plain
  have name : decodeSegment segment = decodeFragment other := by
    rw [(decodeSegment_eq_decodeFragment_iff segment).mpr plain, decodeFragment, decodeFragment,
      same]
  rw [schemaName?_pointerText isLocal opening isPlace free,
    schemaName?_pointerText isLocal opening isPlace freeToo, nonempty?_inj, name,
    decodeSegment_eq_decodeFragment_iff]

/-- Of a segment with an escaped slash a letter may be written by its byte, but not the tilde. -/
theorem escapedSlash_undone :
    IsLocal none [] ∧ Opening "#/".toList ∧ ["definitions".toList] ∈ sections ∧
      '/' ∉ "a~1b".toList ∧ '/' ∉ "a~1%62".toList ∧
      Text.percentDecodeText "a~1%62" = Text.percentDecodeText "a~1b" ∧
      ¬HidesEscape "a~1b".toList ∧ ¬HidesEscape "a~1%62".toList ∧
      decodeSegment "a~1b".toList = decodeFragment "a~1b".toList ∧
      schemaName? "#/definitions/a~1%62" none = schemaName? "#/definitions/a~1b" none := by
  have isLocal : IsLocal none [] := .inl rfl
  have opening : Opening "#/".toList := ⟨0, 1, rfl⟩
  have isPlace : ["definitions".toList] ∈ sections := List.mem_cons_of_mem _ List.mem_cons_self
  have free : '/' ∉ "a~1b".toList := by decide
  have freeToo : '/' ∉ "a~1%62".toList := by decide
  have same : Text.percentDecodeText "a~1%62" = Text.percentDecodeText "a~1b" := by
    decide +kernel
  have plain : ¬HidesEscape "a~1b".toList :=
    (decodeSegment_eq_decodeFragment_iff _).mp (by decide +kernel)
  have plainToo : ¬HidesEscape "a~1%62".toList :=
    (decodeSegment_eq_decodeFragment_iff _).mp (by decide +kernel)
  obtain ⟨undone, reads⟩ := escapes_undone_iff "a~1b".toList
  have alike := (reads none [] "#/".toList ["definitions".toList] "a~1%62".toList isLocal opening
    isPlace free freeToo same plain).mpr plainToo
  exact ⟨isLocal, opening, isPlace, free, freeToo, same, plain, plainToo, undone.mpr plain, alike⟩

/-- With its tilde written by the byte, an escape is left in the name, and the reference names
another schema. -/
theorem hiddenEscape_kept :
    decodeSegment "a%7E1b".toList = "a~1b" ∧ decodeFragment "a%7E1b".toList = "a/b" ∧
      schemaName? "#/definitions/a~1b" none = some "a/b" ∧
      schemaName? "#/definitions/a%7E1b" none = some "a~1b" := by
  decide +kernel

end ApiContract.Reference

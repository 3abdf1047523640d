import ApiContract.Document.Reference
import Mathlib.Data.List.Basic

/-!
Which texts are references, and to which names.

A reference is a bare name, or it consists of the document it points into, marks that open the
pointer, a section that holds schemas, and a segment that is decoded to a name. `Names` says so with
the marks left open: reading a reference takes any run of number signs and any run of slashes behind
it, and nothing else.
-/

namespace ApiContract

namespace Text

variable {separator : Char} {cs before after : List Char} {parts : List (List Char)}

theorem splitOnChar_eq_splitOn (separator : Char) (cs : List Char) :
    splitOnChar separator cs = cs.splitOn separator := by
  induction cs with
  | nil => rfl
  | cons c cs ih =>
    rw [List.splitOn_cons_eq_if_modifyHead, splitOnChar, ih]
    by_cases same : c = separator
    · simp [same]
    · cases split : cs.splitOn separator with
      | nil => exact absurd split (List.splitOn_ne_nil separator cs)
      | cons part parts => simp [same]

theorem not_mem_of_mem_splitOnChar {part : List Char} (isPart : part ∈ splitOnChar separator cs) :
    separator ∉ part := by
  induction cs generalizing part with
  | nil =>
    obtain rfl : part = [] := List.mem_singleton.mp isPart
    exact List.not_mem_nil
  | cons c cs ih =>
    rw [splitOnChar] at isPart
    by_cases same : c = separator
    · rw [if_pos same] at isPart
      rcases List.mem_cons.mp isPart with rfl | later
      · exact List.not_mem_nil
      · exact ih later
    · rw [if_neg same] at isPart
      cases split : splitOnChar separator cs with
      | nil =>
        rw [split] at isPart
        obtain rfl : part = [c] := List.mem_singleton.mp isPart
        simpa using Ne.symm same
      | cons first parts =>
        rw [split] at isPart ih
        rcases List.mem_cons.mp isPart with rfl | later
        · have rest : separator ∉ first := ih List.mem_cons_self
          simp [Ne.symm same, rest]
        · exact ih (List.mem_cons_of_mem first later)

theorem splitOnChar_eq_iff :
    splitOnChar separator cs = parts ↔
      parts ≠ [] ∧ (∀ part ∈ parts, separator ∉ part) ∧ cs = [separator].intercalate parts := by
  constructor
  · rintro rfl
    refine ⟨?_, fun part => not_mem_of_mem_splitOnChar, ?_⟩
    · rw [splitOnChar_eq_splitOn]
      exact List.splitOn_ne_nil separator cs
    · rw [splitOnChar_eq_splitOn, List.intercalate_splitOn]
  · rintro ⟨some, free, rfl⟩
    rw [splitOnChar_eq_splitOn]
    exact List.splitOn_intercalate separator free some

theorem splitAt?_char_eq_some_iff :
    splitAt? [separator] cs = some (before, after) ↔
      separator ∉ before ∧ cs = before ++ separator :: after := by
  induction cs generalizing before with
  | nil => simp [splitAt?]
  | cons c cs ih =>
    rw [splitAt?]
    by_cases same : separator = c
    · subst same
      rw [if_pos (by simp)]
      constructor
      · intro here
        obtain ⟨rfl, rfl⟩ := Prod.mk.inj (Option.some.inj here)
        exact ⟨List.not_mem_nil, rfl⟩
      · rintro ⟨free, joined⟩
        cases before with
        | nil => rw [(List.cons.inj joined).2]; rfl
        | cons b before => exact absurd (List.cons.inj joined).1 fun same => free (by simp [same])
    · have notHere : [separator].isPrefixOf (c :: cs) = false := by
        simpa [List.isPrefixOf] using same
      rw [notHere, if_neg Bool.false_ne_true, Option.map_eq_some_iff]
      constructor
      · rintro ⟨⟨start, rest⟩, found, here⟩
        obtain ⟨rfl, rfl⟩ := Prod.mk.inj here
        obtain ⟨free, rfl⟩ := ih.mp found
        exact ⟨by simp [same, free], rfl⟩
      · rintro ⟨free, joined⟩
        cases before with
        | nil => exact absurd (List.cons.inj joined).1.symm same
        | cons b before =>
          obtain ⟨rfl, rest⟩ := List.cons.inj joined
          exact ⟨(before, after), ih.mpr ⟨fun found => free (List.mem_cons_of_mem c found), rest⟩,
            rfl⟩

theorem dropWhile_eq_iff {c : Char} {cs rest : List Char} :
    cs.dropWhile (· = c) = rest ↔ rest.head? ≠ some c ∧ ∃ n, cs = List.replicate n c ++ rest := by
  induction cs with
  | nil =>
    constructor
    · rintro rfl
      exact ⟨by simp, 0, rfl⟩
    · rintro ⟨-, n, joined⟩
      exact (List.append_eq_nil_iff.mp joined.symm).2.symm
  | cons b cs ih =>
    by_cases same : b = c
    · subst same
      rw [List.dropWhile_cons_of_pos (by simp), ih, and_congr_right_iff]
      intro stops
      constructor
      · rintro ⟨n, rfl⟩
        exact ⟨n + 1, rfl⟩
      · rintro ⟨n, joined⟩
        cases n with
        | zero => exact absurd (congrArg List.head? joined.symm) stops
        | succ n => exact ⟨n, (List.cons.inj joined).2⟩
    · rw [List.dropWhile_cons_of_neg (by simpa using same)]
      constructor
      · rintro rfl
        exact ⟨by simpa using same, 0, rfl⟩
      · rintro ⟨-, n, joined⟩
        cases n with
        | zero => exact joined
        | succ n => exact absurd (List.cons.inj joined).1 same

end Text

namespace Reference

/-- Document parts of a reference into the document at `self`: no text, or one that names it. -/
def IsLocal (self : Option String) (document : List Char) : Prop :=
  document = [] ∨
    '#' ∉ document ∧ ∃ uri, self = some uri ∧ namesDocument (String.ofList document) uri = true

/-- The marks that open a pointer where it is read: number signs, and slashes behind them. -/
def Opening (marks : List Char) : Prop :=
  ∃ signs slashes, marks = List.replicate (signs + 1) '#' ++ List.replicate slashes '/'

/-- References in the document at `self` and the names they point to, by the marks that may open a
pointer. -/
inductive Names (opening : List Char → Prop) (self : Option String) : List Char → String → Prop
  | bare {name : String} : name ≠ "" → '#' ∉ name.toList → '/' ∉ name.toList →
      Names opening self name.toList name
  | pointer {document marks segment : List Char} {place : List (List Char)} {name : String} :
      IsLocal self document → opening marks → place ∈ sections → '/' ∉ segment →
      decodeSegment segment = name → name ≠ "" →
      Names opening self (document ++ marks ++ ['/'].intercalate (place ++ [segment])) name

variable {self : Option String} {cs pointer document segment marks : List Char}
  {place : List (List Char)} {reference name : String}

theorem Opening.exists_cons (opening : Opening marks) : ∃ rest, marks = '#' :: rest := by
  obtain ⟨signs, slashes, rfl⟩ := opening
  exact ⟨_, rfl⟩

theorem nonempty?_eq_some_iff : nonempty? reference = some name ↔ reference = name ∧ name ≠ "" := by
  unfold nonempty?
  by_cases none : reference = ""
  · simp only [none, if_true, reduceCtorEq, false_iff, not_and, not_not]
    exact Eq.symm
  · rw [if_neg none, Option.some_inj, iff_self_and]
    rintro rfl
    exact none

theorem pointer?_eq_some_iff :
    pointer? cs self = some pointer ↔
      ∃ document fragment, IsLocal self document ∧ cs = document ++ pointer ∧
        pointer = '#' :: fragment := by
  unfold pointer?
  by_cases marked : cs.head? = some '#'
  · obtain ⟨fragment, rfl⟩ := List.head?_eq_some_iff.mp marked
    rw [if_pos marked, Option.some_inj]
    constructor
    · rintro rfl
      exact ⟨[], fragment, .inl rfl, rfl, rfl⟩
    · rintro ⟨document, rest, isLocal, joined, rfl⟩
      rcases isLocal with rfl | ⟨unmarked, -⟩
      · exact joined
      · cases document with
        | nil => exact joined
        | cons c document =>
          obtain rfl : '#' = c := (List.cons.inj joined).1
          exact absurd List.mem_cons_self unmarked
  · rw [if_neg marked]
    constructor
    · intro found
      cases splits : Text.splitAt? ['#'] cs with
      | none => simp [splits] at found
      | some parts =>
        cases self with
        | none => simp [splits] at found
        | some uri =>
          obtain ⟨unmarked, rfl⟩ := Text.splitAt?_char_eq_some_iff.mp splits
          simp only [splits] at found
          split at found
          · next named =>
            obtain rfl := Option.some.inj found
            exact ⟨parts.1, parts.2, .inr ⟨unmarked, uri, rfl, named⟩, rfl, rfl⟩
          · cases found
    · rintro ⟨document, fragment, isLocal, rfl, rfl⟩
      rcases isLocal with rfl | ⟨unmarked, uri, rfl, named⟩
      · exact absurd rfl marked
      · have splits : Text.splitAt? ['#'] (document ++ '#' :: fragment) = some (document, fragment) :=
          Text.splitAt?_char_eq_some_iff.mpr ⟨unmarked, rfl⟩
        simp only [splits, named, if_true]

theorem head?_intercalate_of_mem_sections (isPlace : place ∈ sections) (segment : List Char) :
    (['/'].intercalate (place ++ [segment])).head? ≠ some '#' ∧
      (['/'].intercalate (place ++ [segment])).head? ≠ some '/' := by
  rcases List.mem_cons.mp isPlace with rfl | isSecond
  · constructor <;> simp [List.intercalate]
  · obtain rfl := List.mem_singleton.mp isSecond
    constructor <;> simp [List.intercalate]

theorem not_mem_of_mem_sections (isPlace : place ∈ sections) {part : List Char}
    (isPart : part ∈ place) : '/' ∉ part := by
  have all : ∀ place ∈ sections, ∀ part ∈ place, '/' ∉ part := by decide
  exact all place isPlace part isPart

/-- A pointer has a segment at a place where it is opened, joined and ended in these parts. -/
theorem segments_eq_iff (isPlace : place ∈ sections) :
    segments ('#' :: cs) = place ++ [segment] ↔
      '/' ∉ segment ∧ ∃ marks, Opening marks ∧
        '#' :: cs = marks ++ ['/'].intercalate (place ++ [segment]) := by
  obtain ⟨noSign, noSlash⟩ := head?_intercalate_of_mem_sections isPlace segment
  rw [segments, Text.splitOnChar_eq_iff]
  constructor
  · rintro ⟨-, free, joined⟩
    obtain ⟨-, slashes, behind⟩ := Text.dropWhile_eq_iff.mp joined
    obtain ⟨stops, signs, whole⟩ := Text.dropWhile_eq_iff.mp behind
    refine ⟨free segment (by simp), _, ?_, whole.trans (List.append_assoc _ _ _).symm⟩
    cases signs with
    | zero =>
      rw [List.replicate_zero, List.nil_append] at whole
      rw [← whole] at stops
      exact absurd rfl stops
    | succ signs => exact ⟨signs, slashes, rfl⟩
  · rintro ⟨free, _, ⟨signs, slashes, rfl⟩, whole⟩
    refine ⟨by simp, ?_, ?_⟩
    · intro part isPart
      rcases List.mem_append.mp isPart with early | last
      · exact not_mem_of_mem_sections isPlace early
      · rwa [List.mem_singleton.mp last]
    · rw [List.append_assoc] at whole
      have behind : ('#' :: cs).dropWhile (· = '#') =
          List.replicate slashes '/' ++ ['/'].intercalate (place ++ [segment]) := by
        refine Text.dropWhile_eq_iff.mpr ⟨?_, signs + 1, whole⟩
        cases slashes with
        | zero => exact noSign
        | succ slashes => simp [List.replicate_succ]
      exact Text.dropWhile_eq_iff.mpr ⟨noSlash, slashes, behind⟩

theorem schemaName?_of_bare (unmarked : '#' ∉ reference.toList) (whole : '/' ∉ reference.toList) :
    schemaName? reference self = nonempty? reference := by
  unfold schemaName?
  exact if_pos (by simpa using ⟨unmarked, whole⟩)

theorem schemaName?_of_pointer (marked : '#' ∈ reference.toList ∨ '/' ∈ reference.toList) :
    schemaName? reference self = some name ↔
      ∃ pointer, pointer? reference.toList self = some pointer ∧
        ∃ place ∈ sections, ∃ segment, segments pointer = place ++ [segment] ∧
          decodeSegment segment = name ∧ name ≠ "" := by
  have notBare : ¬(¬reference.toList.contains '#' ∧ ¬reference.toList.contains '/') := by
    simp only [List.contains_iff_mem]
    tauto
  unfold schemaName?
  rw [if_neg notBare, Option.bind_eq_some_iff]
  apply exists_congr
  intro pointer
  apply and_congr_right
  intro isPointer
  constructor
  · intro found
    dsimp only at found
    split at found
    · next isPlace =>
      obtain ⟨segment, last, decoded⟩ := Option.bind_eq_some_iff.mp found
      obtain ⟨before, split⟩ := List.getLast?_eq_some_iff.mp last
      rw [split, List.dropLast_concat] at isPlace
      exact ⟨before, isPlace, segment, split, nonempty?_eq_some_iff.mp decoded⟩
    · cases found
  · rintro ⟨place, isPlace, segment, split, decoded⟩
    dsimp only
    rw [split, List.dropLast_concat, if_pos isPlace, List.getLast?_concat, Option.bind_some]
    exact nonempty?_eq_some_iff.mpr decoded

theorem names_of_schemaName?_eq_some (found : schemaName? reference self = some name) :
    Names Opening self reference.toList name := by
  by_cases marked : '#' ∈ reference.toList ∨ '/' ∈ reference.toList
  · obtain ⟨pointer, isPointer, place, isPlace, segment, split, decoded, some⟩ :=
      (schemaName?_of_pointer marked).mp found
    obtain ⟨document, fragment, isLocal, joined, rfl⟩ := pointer?_eq_some_iff.mp isPointer
    obtain ⟨free, marks, opening, whole⟩ := (segments_eq_iff isPlace).mp split
    rw [joined, whole, ← List.append_assoc]
    exact .pointer isLocal opening isPlace free decoded some
  · obtain ⟨unmarked, whole⟩ := not_or.mp marked
    rw [schemaName?_of_bare unmarked whole] at found
    obtain ⟨rfl, some⟩ := nonempty?_eq_some_iff.mp found
    exact .bare some unmarked whole

theorem schemaName?_eq_some_of_names (names : Names Opening self reference.toList name) :
    schemaName? reference self = some name := by
  generalize spelled : reference.toList = cs at names
  cases names with
  | bare some unmarked whole =>
    obtain rfl : reference = name := String.toList_inj.mp spelled
    rw [schemaName?_of_bare unmarked whole]
    exact nonempty?_eq_some_iff.mpr ⟨rfl, some⟩
  | @pointer document marks segment place _ isLocal opening isPlace free decoded some =>
    obtain ⟨rest, rfl⟩ := opening.exists_cons
    have marked : '#' ∈ reference.toList := by simp [spelled]
    rw [List.append_assoc, List.cons_append] at spelled
    refine (schemaName?_of_pointer (.inl marked)).mpr ⟨_,
      pointer?_eq_some_iff.mpr ⟨document, _, isLocal, spelled, rfl⟩, place, isPlace, segment, ?_,
      decoded, some⟩
    exact (segments_eq_iff isPlace).mpr ⟨free, _, opening, rfl⟩

/-- A reference is read as a name exactly if it is that name and no pointer, or if it is a pointer
into this document whose segment is decoded to the name. -/
theorem schemaName?_eq_some_iff (reference : String) (self : Option String) (name : String) :
    schemaName? reference self = some name ↔ Names Opening self reference.toList name :=
  ⟨names_of_schemaName?_eq_some, schemaName?_eq_some_of_names⟩

/-- Where one number sign and one slash open a pointer, a doubled number sign does not. It is read
all the same. -/
theorem doubled_sign_read :
    schemaName? "##/components/schemas/A" none = some "A" ∧
      ¬Names (· = ['#', '/']) none "##/components/schemas/A".toList "A" := by
  constructor
  · apply schemaName?_eq_some_of_names
    have decoded : decodeSegment ['A'] = "A" := by
      simp [decodeSegment, replaceEscape, Text.percentDecodeText, Text.percentDecode,
        Text.utf8Encode, Text.encodeChar, Text.utf8Decode, Text.decodeHead]
    have opening : Opening "##/".toList := ⟨1, 1, rfl⟩
    have isPlace : ["components".toList, "schemas".toList] ∈ sections := List.mem_cons_self
    have isNamed : Names Opening none ([] ++ "##/".toList ++
        ['/'].intercalate (["components".toList, "schemas".toList] ++ [['A']])) "A" :=
      .pointer (.inl rfl) opening isPlace (by decide) decoded (by decide)
    exact isNamed
  · intro names
    generalize spelled : "##/components/schemas/A".toList = cs at names
    cases names with
    | bare some unmarked whole => exact unmarked (by simp [← spelled])
    | @pointer document marks segment place name isLocal opening =>
      subst opening
      rcases isLocal with rfl | ⟨-, uri, none, -⟩
      · simp at spelled
      · cases none

end Reference

end ApiContract

import ApiContract.Proofs.Document.Pointers
import ApiContract.Proofs.Document.Resolution
import ApiContract.Proofs.Text.Percent

/-!
The ways to write a reference to a schema.

A segment of a pointer writes a tilde and a slash by their escapes, and any other character itself or
by its bytes, a percent sign only by its byte. Reading undoes the escapes first; that brings up no
percent sign, and no escape that was not written. So all spellings of a name are read as the name,
and all references that are spelled for it come to the same node or fail.
-/

namespace ApiContract.Reference

inductive WritesChar : Char → List Char → Prop
  | tilde : WritesChar '~' ['~', '0']
  | slash : WritesChar '/' ['~', '1']
  | other {c : Char} {part : List Char} :
      c ≠ '~' → c ≠ '/' → Text.EncodesChar c part → WritesChar c part

/-- The segments that write a name, character by character. -/
inductive Writes : List Char → List Char → Prop
  | nil : Writes [] []
  | cons {c : Char} {cs part segment : List Char} :
      WritesChar c part → Writes cs segment → Writes (c :: cs) (part ++ segment)

variable {digit by_ c x : Char} {cs part segment rest : List Char}

theorem replaceEscape_cons_of_ne (other : c ≠ '~') :
    replaceEscape digit by_ (c :: cs) = c :: replaceEscape digit by_ cs := by
  rw [replaceEscape]
  exact fun _ _ tilde => absurd tilde other

theorem replaceEscape_append (free : '~' ∉ part) :
    replaceEscape digit by_ (part ++ rest) = part ++ replaceEscape digit by_ rest := by
  induction part with
  | nil => rfl
  | cons c part ih =>
    obtain ⟨other, later⟩ := not_or.mp (mt List.mem_cons.mpr free)
    rw [List.cons_append, replaceEscape_cons_of_ne (Ne.symm other), ih later, List.cons_append]

theorem replaceEscape_escape :
    replaceEscape digit by_ ('~' :: digit :: rest) = by_ :: replaceEscape digit by_ rest := by
  rw [replaceEscape, if_pos rfl]

theorem replaceEscape_other (other : c ≠ digit) :
    replaceEscape digit by_ ('~' :: c :: rest) = '~' :: replaceEscape digit by_ (c :: rest) := by
  rw [replaceEscape, if_neg other]

theorem not_mem_of_encodesChar (encodes : Text.EncodesChar c part) (other : x ≠ c)
    (notSign : x ≠ '%') (notDigit : Text.hexValue? x = none) : x ∉ part := by
  cases encodes with
  | plain => simpa using other
  | bytes encodes =>
    intro isChar
    obtain ⟨escape, isPart, inPart⟩ := List.mem_flatten.mp isChar
    obtain ⟨b, -, high, low, rfl, isHigh, isLow⟩ :=
      Outcome.exists_mem_left_of_forall₂ encodes isPart
    have digit {y : Char} {value : Nat} (isDigit : Text.hexValue? y = some value) : x ≠ y := by
      rintro rfl
      simp [notDigit] at isDigit
    rcases List.mem_cons.mp inPart with rfl | inPart
    · exact notSign rfl
    rcases List.mem_cons.mp inPart with rfl | inPart
    · exact digit isHigh rfl
    · exact digit isLow (List.mem_singleton.mp inPart)

/-- Undoing the escapes of a segment leaves its name percent-encoded. -/
theorem encodes_of_writes (writes : Writes cs segment) :
    Text.Encodes cs (replaceEscape '0' '~' (replaceEscape '1' '/' segment)) := by
  induction writes with
  | nil => exact .nil
  | @cons c cs part segment first _ ih =>
    cases first with
    | tilde =>
      have undone : replaceEscape '0' '~' (replaceEscape '1' '/' (['~', '0'] ++ segment)) =
          ['~'] ++ replaceEscape '0' '~' (replaceEscape '1' '/' segment) := by
        rw [List.cons_append, List.singleton_append, replaceEscape_other (by decide),
          replaceEscape_cons_of_ne (c := '0') (by decide), replaceEscape_escape,
          List.singleton_append]
      rw [undone]
      exact .cons (.plain (by decide)) ih
    | slash =>
      have undone : replaceEscape '0' '~' (replaceEscape '1' '/' (['~', '1'] ++ segment)) =
          ['/'] ++ replaceEscape '0' '~' (replaceEscape '1' '/' segment) := by
        rw [List.cons_append, List.singleton_append, replaceEscape_escape,
          replaceEscape_cons_of_ne (by decide), List.singleton_append]
      rw [undone]
      exact .cons (.plain (by decide)) ih
    | other notTilde notSlash encodes =>
      have free : '~' ∉ part :=
        not_mem_of_encodesChar encodes (Ne.symm notTilde) (by decide) (by decide)
      rw [replaceEscape_append free, replaceEscape_append free]
      exact .cons encodes ih

theorem decodeSegment_of_writes {name : String} (writes : Writes name.toList segment) :
    decodeSegment segment = name :=
  Text.percentDecodeText_of_encodes (encodes_of_writes writes)

theorem encodesChar_sign : Text.EncodesChar '%' ['%', '2', '5'] := by
  have byte : Text.EncodesByte 0x25 ['%', '2', '5'] := ⟨'2', '5', rfl, by decide, by decide⟩
  have parts : List.Forall₂ Text.EncodesByte (Text.encodeChar '%') [['%', '2', '5']] :=
    .cons byte .nil
  exact .bytes parts

theorem exists_writes (cs : List Char) : ∃ segment, Writes cs segment := by
  induction cs with
  | nil => exact ⟨[], .nil⟩
  | cons c cs ih =>
    obtain ⟨segment, rest⟩ := ih
    by_cases isTilde : c = '~'
    · subst isTilde
      exact ⟨_, .cons .tilde rest⟩
    by_cases isSlash : c = '/'
    · subst isSlash
      exact ⟨_, .cons .slash rest⟩
    by_cases isSign : c = '%'
    · subst isSign
      exact ⟨_, .cons (.other isTilde isSlash encodesChar_sign) rest⟩
    · exact ⟨_, .cons (.other isTilde isSlash (.plain isSign)) rest⟩

theorem not_mem_of_writes (writes : Writes cs segment) : '/' ∉ segment := by
  induction writes with
  | nil => exact List.not_mem_nil
  | cons first _ ih =>
    rw [List.mem_append, not_or]
    refine ⟨?_, ih⟩
    cases first with
    | tilde => decide
    | slash => decide
    | other _ notSlash encodes =>
      exact not_mem_of_encodesChar encodes (Ne.symm notSlash) (by decide) (by decide)

/-- The references that are spelled for a schema in the document at `uri`: its bare name if that
cannot be taken for a pointer, and pointers to it, with or without the document. -/
inductive Spells (uri name : String) : String → Prop
  | bare : '#' ∉ name.toList → '/' ∉ name.toList → Spells uri name name
  | pointer {document place : String} {segment : List Char} :
      document = "" ∨ document = uri → place = "components/schemas" ∨ place = "definitions" →
      Writes name.toList segment →
      Spells uri name (document ++ "#/" ++ place ++ "/" ++ String.ofList segment)

variable {uri name reference : String}

theorem isLocal_of_self {document : String} (unmarked : '#' ∉ uri.toList)
    (here : document = "" ∨ document = uri) : IsLocal (some uri) document.toList := by
  rcases here with rfl | rfl
  · exact .inl rfl
  · refine .inr ⟨unmarked, document, rfl, ?_⟩
    rw [String.ofList_toList, namesDocument, if_pos rfl]

/-- Every spelled reference is one of those that are read. -/
theorem names_of_spells (unmarked : '#' ∉ uri.toList) (some : name ≠ "")
    (spells : Spells uri name reference) :
    Names Opening (.some uri) reference.toList name := by
  cases spells with
  | bare noSign noSlash => exact .bare some noSign noSlash
  | @pointer document place segment here isPlace writes =>
    have isLocal := isLocal_of_self unmarked here
    have opening : Opening ['#', '/'] := ⟨0, 1, rfl⟩
    have free := not_mem_of_writes writes
    have decoded := decodeSegment_of_writes writes
    rcases isPlace with rfl | rfl
    · have named := Names.pointer isLocal opening List.mem_cons_self free decoded some
      simpa [List.intercalate] using named
    · have named := Names.pointer isLocal opening (List.mem_cons_of_mem _ List.mem_cons_self) free
        decoded some
      simpa [List.intercalate] using named

end ApiContract.Reference

namespace ApiContract.Document

open Reference

variable {d : Document} {uri name reference : String} {node next : Schema}

/-- A reference comes to what its target comes to. -/
theorem resolve_of_target?_eq_some (shape : node.shape = .ref reference)
    (found : d.target? reference = some next) : d.resolve node = d.follow d.size next :=
  follow_of_step (.ref shape found) d.size

/-- Every name can be written in a segment, and however it is spelled in a reference, it is read as
the name. So the references that are spelled for a name all come to one node or all fail. -/
theorem spellings_agree (self : d.selfUri = some uri) (unmarked : '#' ∉ uri.toList)
    (some : name ≠ "") :
    (∃ segment, Writes name.toList segment) ∧
      (∀ reference, Spells uri name reference →
        schemaName? reference d.selfUri = .some name) ∧
      ((∃ target, ∀ node reference, node.shape = .ref reference → Spells uri name reference →
          d.resolve node = .ok target) ∨
        ∀ node reference, node.shape = .ref reference → Spells uri name reference →
          ∃ cause, d.resolve node = .error cause) := by
  have read (reference : String) (spells : Spells uri name reference) :
      schemaName? reference d.selfUri = .some name := by
    rw [self]
    exact schemaName?_eq_some_of_names (names_of_spells unmarked some spells)
  have target (reference : String) (spells : Spells uri name reference) :
      d.target? reference = d.get? name := by
    rw [target?, read reference spells, Option.bind_some]
  refine ⟨exists_writes name.toList, read, ?_⟩
  cases found : d.get? name with
  | none =>
    right
    intro node reference shape spells
    have dangling : d.target? reference = none := (target reference spells).trans found
    exact ⟨_, resolve_of_breaksAt ⟨node, .refl, shape, dangling⟩⟩
  | some next =>
    have follows (node : Schema) (reference : String) (shape : node.shape = .ref reference)
        (spells : Spells uri name reference) : d.resolve node = d.follow d.size next :=
      resolve_of_target?_eq_some shape ((target reference spells).trans found)
    cases ends : d.follow d.size next with
    | ok target =>
      left
      refine ⟨target, ?_⟩
      intro node reference shape spells
      rw [follows node reference shape spells, ends]
    | error cause =>
      right
      intro node reference shape spells
      exact ⟨cause, (follows node reference shape spells).trans ends⟩

def rateDocument : Document where
  schemas := [("~1/50%é", .string)]
  selfUri := some "rates.yaml"

theorem rate_written : Writes "~1/50%é".toList "~01~150%25é".toList := by
  have plain {c : Char} (notTilde : c ≠ '~') (notSlash : c ≠ '/') (notSign : c ≠ '%') :
      WritesChar c [c] := .other notTilde notSlash (.plain notSign)
  have sign : WritesChar '%' ['%', '2', '5'] := .other (by decide) (by decide) encodesChar_sign
  exact .cons .tilde (.cons (plain (by decide) (by decide) (by decide)) (.cons .slash
    (.cons (plain (by decide) (by decide) (by decide))
    (.cons (plain (by decide) (by decide) (by decide)) (.cons sign
    (.cons (plain (by decide) (by decide) (by decide)) .nil))))))

theorem rate_spellings_agree :
    rateDocument.selfUri = some "rates.yaml" ∧ '#' ∉ "rates.yaml".toList ∧ "~1/50%é" ≠ "" ∧
      schemaName? "#/definitions/~01~150%25é" rateDocument.selfUri = some "~1/50%é" ∧
      rateDocument.resolve (.reference "#/definitions/~01~150%25é") = .ok .string ∧
      rateDocument.resolve (.reference "rates.yaml#/components/schemas/~01~150%25é") =
        .ok .string := by
  have unmarked : '#' ∉ "rates.yaml".toList := by decide
  have some : "~1/50%é" ≠ "" := by decide
  have short : Spells "rates.yaml" "~1/50%é" "#/definitions/~01~150%25é" :=
    .pointer (.inl rfl) (.inr rfl) rate_written
  have long : Spells "rates.yaml" "~1/50%é" "rates.yaml#/components/schemas/~01~150%25é" :=
    .pointer (.inr rfl) (.inl rfl) rate_written
  obtain ⟨-, read, same⟩ := spellings_agree (d := rateDocument) rfl unmarked some
  have found : rateDocument.target? "#/definitions/~01~150%25é" = .some .string := by
    rw [target?, read _ short]
    rfl
  have ends : rateDocument.resolve (.reference "#/definitions/~01~150%25é") = .ok .string :=
    resolve_of_target?_eq_some rfl found
  refine ⟨rfl, unmarked, some, read _ short, ends, ?_⟩
  rcases same with ⟨target, same⟩ | fails
  · rw [← ends, same (.reference _) _ rfl short, same (.reference _) _ rfl long]
  · obtain ⟨cause, failed⟩ := fails (.reference _) _ rfl short
    cases ends.symm.trans failed

end ApiContract.Document

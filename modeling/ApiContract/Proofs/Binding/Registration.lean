import ApiContract.Proofs.Binding.Bodies
import ApiContract.Proofs.Binding.Sending
import ApiContract.Proofs.Text.Letters
import Mathlib.Data.List.DropRight

/-!
Schemas registered by content type.

A content type names a media type, with blanks around the name, parameters behind it and letters of
either case. Schemas are looked up by media type, but a registration keeps the content type as it is
spelled, and the first one that fits is taken. So the spelling in which a media type is registered
first holds it from then on. A schema that is registered in this spelling replaces the one before,
and one that is registered in another spelling is never found.
-/

namespace ApiContract

namespace Text

/-- A text that does not start or end with a blank. -/
structure IsTrimmed (cs : List Char) : Prop where
  starts : ∀ c ∈ cs.head?, isBlank c = false
  ends : ∀ c ∈ cs.getLast?, isBlank c = false

theorem dropWhile_of_head? {cs : List Char} (starts : ∀ c ∈ cs.head?, isBlank c = false) :
    cs.dropWhile isBlank = cs := by
  cases cs with
  | nil => rfl
  | cons c cs => rw [List.dropWhile_cons_of_neg (by simp [starts c rfl])]

theorem isTrimmed_trim (cs : List Char) : IsTrimmed (trim cs) where
  starts c isFirst := by
    have first : c ∈ (trimStart cs).head? := by
      obtain ⟨rest, whole⟩ : trim cs <+: trimStart cs := List.rdropWhile_prefix isBlank _
      rw [← whole, List.head?_append, Option.mem_def.mp isFirst]
      rfl
    have notBlank := List.head?_dropWhile_not isBlank cs
    rwa [← trimStart, Option.mem_def.mp first] at notBlank
  ends c isLast := by
    obtain ⟨some, rfl⟩ := List.mem_getLast?_eq_getLast isLast
    exact Bool.eq_false_iff.mpr (List.rdropWhile_last_not isBlank (trimStart cs) some)

/-- Trimming takes a text apart into blanks, what is not blank at its ends, and blanks. -/
theorem trim_eq_iff {cs name : List Char} :
    trim cs = name ↔ IsTrimmed name ∧ ∃ front back, cs = front ++ (name ++ back) ∧
      (∀ c ∈ front, isBlank c = true) ∧ ∀ c ∈ back, isBlank c = true := by
  constructor
  · rintro rfl
    refine ⟨isTrimmed_trim cs, cs.takeWhile isBlank, (trimStart cs).rtakeWhile isBlank, ?_,
      fun c => List.mem_takeWhile_imp, fun c => List.mem_rtakeWhile_imp⟩
    have inner : trim cs ++ (trimStart cs).rtakeWhile isBlank = trimStart cs :=
      List.rdropWhile_append_rtakeWhile
    rw [inner, trimStart, List.takeWhile_append_dropWhile]
  · rintro ⟨trimmed, front, back, rfl, frontBlank, backBlank⟩
    rw [trim, trimStart, List.dropWhile_append_of_pos frontBlank]
    cases name with
    | nil => rw [List.nil_append, List.dropWhile_eq_nil_iff.mpr backBlank]; rfl
    | cons first rest =>
      have starts : (first :: rest ++ back).dropWhile isBlank = first :: rest ++ back :=
        dropWhile_of_head? trimmed.starts
      have ends : (first :: rest).reverse.dropWhile isBlank = (first :: rest).reverse :=
        dropWhile_of_head? (by simpa only [List.head?_reverse] using trimmed.ends)
      rw [starts, trimEnd, List.reverse_append,
        List.dropWhile_append_of_pos (by simpa using backBlank), ends, List.reverse_reverse]

end Text

/-- How a content type names a media type: with blanks around it, and parameters behind them. -/
inductive TypeNamed (name : List Char) : List Char → Prop
  | spelled {front back parameters : List Char} :
      (∀ c ∈ front, Text.isBlank c = true) → Text.IsTrimmed name → ';' ∉ name →
      (∀ c ∈ back, Text.isBlank c = true) → (∀ c ∈ parameters.head?, c = ';') →
      TypeNamed name (front ++ (name ++ back) ++ parameters)

/-- The same media type up to the case of letters, blanks around it and parameters. -/
def SameMediaType (a b : String) : Prop :=
  ∃ name other, TypeNamed name a.toList ∧ TypeNamed other b.toList ∧ Text.SameLetters name other

theorem typeNamed_iff {name cs : List Char} :
    TypeNamed name cs ↔ Text.trim (cs.takeWhile (· ≠ ';')) = name := by
  have notBlank : Text.isBlank ';' = false := by decide
  constructor
  · intro named
    obtain @⟨front, back, parameters, frontBlank, trimmed, bare, backBlank, marked⟩ := named
    have unmarked : ∀ c ∈ front ++ (name ++ back), decide (c ≠ ';') = true := by
      simp only [List.mem_append, decide_eq_true_eq]
      rintro c (inFront | inName | inBack) rfl
      · simp [frontBlank _ inFront] at notBlank
      · exact bare inName
      · simp [backBlank _ inBack] at notBlank
    have nothing : parameters.takeWhile (· ≠ ';') = [] := by
      cases parameters with
      | nil => rfl
      | cons c rest => rw [List.takeWhile_cons_of_neg (by simp [marked c rfl])]
    rw [List.takeWhile_append_of_pos unmarked, nothing, List.append_nil]
    exact Text.trim_eq_iff.mpr ⟨trimmed, front, back, rfl, frontBlank, backBlank⟩
  · intro isName
    obtain ⟨trimmed, front, back, whole, frontBlank, backBlank⟩ := Text.trim_eq_iff.mp isName
    have bare : ';' ∉ name := by
      intro inName
      have inFirst : ';' ∈ cs.takeWhile (· ≠ ';') := by
        rw [whole]
        simp [inName]
      simpa using List.mem_takeWhile_imp inFirst
    have marked : ∀ c ∈ (cs.dropWhile (· ≠ ';')).head?, c = ';' := by
      intro c isFirst
      have stopped := List.head?_dropWhile_not (· ≠ ';') cs
      rw [Option.mem_def.mp isFirst] at stopped
      simpa using stopped
    rw [← List.takeWhile_append_dropWhile (p := (· ≠ ';')) (l := cs), whole]
    exact .spelled frontBlank trimmed bare backBlank marked

theorem mediaType_eq_iff {a b : String} : mediaType a = mediaType b ↔ SameMediaType a b := by
  simp only [mediaType, Request.lowerCase_eq_iff, String.toList_ofList, SameMediaType,
    typeNamed_iff, exists_and_left, exists_eq_left']

/-- Registers a schema for bodies of a content type. -/
def BodyRule.register (rule : BodyRule) (e : String × Schema) : BodyRule :=
  { rule with content := Entries.insert rule.content e.1 e.2 }

namespace Content

variable {content : Content} {earlier : List (String × Schema)} {contentType wanted : String}
  {schema : Schema}

def register (content : Content) (e : String × Schema) : Content := Entries.insert content e.1 e.2

def ofRegistrations (registrations : List (String × Schema)) : Content :=
  registrations.foldl register []

theorem content_foldl_register (rule : BodyRule) (registrations : List (String × Schema)) :
    (registrations.foldl BodyRule.register rule).content =
      registrations.foldl register rule.content := by
  induction registrations generalizing rule with
  | nil => rfl
  | cons e rest ih => exact ih (rule.register e)

/-- The spelling in which the media type of a content type is registered. -/
def spelling? (content : Content) (contentType : String) : Option String :=
  (Entries.keys content).find? fun key => mediaType key = mediaType contentType

theorem mediaType_of_spelling? {key : String} (found : content.spelling? wanted = some key) :
    mediaType key = mediaType wanted := by
  simpa using List.find?_some found

theorem schemaFor?_eq_bind (content : Content) (wanted : String) :
    content.schemaFor? wanted = (content.spelling? wanted).bind (Entries.get? content) := by
  induction content with
  | nil => rfl
  | cons e content ih =>
    obtain ⟨key, schema⟩ := e
    by_cases fits : mediaType key = mediaType wanted
    · simp [schemaFor?, spelling?, fits, Entries.get?]
    · have later : spelling? ((key, schema) :: content) wanted = spelling? content wanted := by
        simp [spelling?, fits]
      have goesOn : schemaFor? ((key, schema) :: content) wanted = schemaFor? content wanted := by
        simp [schemaFor?, fits]
      rw [later, goesOn, ih]
      refine Option.bind_congr fun other found => ?_
      have different : key ≠ other := by
        rintro rfl
        exact fits (mediaType_of_spelling? found)
      rw [Entries.get?, if_neg different]

theorem spelling?_register (content : Content) (e : String × Schema) (wanted : String) :
    (content.register e).spelling? wanted =
      (content.spelling? wanted).or
        (if mediaType e.1 = mediaType wanted then some e.1 else none) := by
  unfold spelling? register
  rw [Entries.keys_insert]
  split
  · next known =>
    split
    · next fits =>
      have present : ((Entries.keys content).find? fun key =>
          mediaType key = mediaType wanted).isSome :=
        List.find?_isSome.mpr ⟨e.1, known, by simpa using fits⟩
      rw [Option.or_of_isSome present]
    · rw [Option.or_none]
  · rw [List.find?_append, List.find?_singleton]
    simp only [decide_eq_true_eq]

/-- The first spelling that is registered stays. -/
theorem spelling?_ofRegistrations (registrations : List (String × Schema)) (wanted : String) :
    (ofRegistrations registrations).spelling? wanted =
      (registrations.find? fun e => mediaType e.1 = mediaType wanted).map Prod.fst := by
  have run (content : Content) : (registrations.foldl register content).spelling? wanted =
      (content.spelling? wanted).or
        ((registrations.find? fun e => mediaType e.1 = mediaType wanted).map Prod.fst) := by
    induction registrations generalizing content with
    | nil => simp
    | cons e rest ih =>
      rw [List.foldl_cons, ih, spelling?_register, List.find?_cons, Option.or_assoc]
      by_cases fits : mediaType e.1 = mediaType wanted <;> simp [fits]
  rw [ofRegistrations, run]
  rfl

/-- Whether a media type is registered, and was registered first in another spelling. -/
def SpelledOtherwise (registrations : List (String × Schema)) (contentType : String) : Prop :=
  ∃ before first after, registrations = before ++ first :: after ∧
    (∀ e ∈ before, ¬SameMediaType e.1 contentType) ∧ SameMediaType first.1 contentType ∧
    first.1 ≠ contentType

theorem spelledOtherwise_iff : SpelledOtherwise earlier contentType ↔
    ∃ key, (ofRegistrations earlier).spelling? contentType = some key ∧ key ≠ contentType := by
  rw [spelling?_ofRegistrations]
  simp only [Option.map_eq_some_iff, List.find?_eq_some_iff_append, decide_eq_true_eq,
    Bool.not_eq_true', decide_eq_false_iff_not, SpelledOtherwise, ← mediaType_eq_iff]
  constructor
  · rintro ⟨before, first, after, split, others, fits, different⟩
    exact ⟨first.1, ⟨first, ⟨fits, before, after, split, others⟩, rfl⟩, different⟩
  · rintro ⟨_, ⟨first, ⟨fits, before, after, split, others⟩, rfl⟩, different⟩
    exact ⟨before, first, after, split, others, fits, different⟩

theorem ofRegistrations_concat (earlier : List (String × Schema)) (e : String × Schema) :
    ofRegistrations (earlier ++ [e]) = (ofRegistrations earlier).register e := by
  rw [ofRegistrations, List.foldl_concat, ofRegistrations]

theorem spelling?_congr (same : mediaType contentType = mediaType wanted) :
    content.spelling? contentType = content.spelling? wanted := by
  rw [spelling?, spelling?, same]

variable {e : String × Schema}

/-- A registration in another spelling than the one that holds a media type does not reach it. -/
theorem schemaFor?_register_of_apart
    (keeps : (content.register e).spelling? wanted = content.spelling? wanted)
    (apart : ∀ key, content.spelling? wanted = some key → e.1 ≠ key) :
    (content.register e).schemaFor? wanted = content.schemaFor? wanted := by
  rw [schemaFor?_eq_bind, schemaFor?_eq_bind, keeps]
  exact Option.bind_congr fun key held => Entries.get?_insert_of_ne _ _ (apart key held)

theorem schemaFor?_register_of_other (other : mediaType e.1 ≠ mediaType wanted) :
    (content.register e).schemaFor? wanted = content.schemaFor? wanted := by
  refine schemaFor?_register_of_apart ?_ fun key held isKey => ?_
  · rw [spelling?_register, if_neg other, Option.or_none]
  · exact other (isKey ▸ mediaType_of_spelling? held)

theorem schemaFor?_register_of_held {key : String} (held : content.spelling? wanted = some key)
    (different : key ≠ e.1) :
    (content.register e).schemaFor? wanted = content.schemaFor? wanted := by
  refine schemaFor?_register_of_apart ?_ fun other isKey => ?_
  · rw [spelling?_register, held, Option.some_or]
  · rw [← Option.some.inj (held.symm.trans isKey)]
    exact different.symm

/-- A registration is found where its spelling holds the media type, or none does yet. -/
theorem schemaFor?_register_self (fits : mediaType e.1 = mediaType wanted)
    (free : ∀ key, content.spelling? wanted = some key → key = e.1) :
    (content.register e).schemaFor? wanted = some e.2 := by
  have holds : (content.register e).spelling? wanted = some e.1 := by
    rw [spelling?_register, if_pos fits]
    cases held : content.spelling? wanted with
    | none => rfl
    | some key => rw [free key held, Option.some_or]
  rw [schemaFor?_eq_bind, holds, Option.bind_some]
  exact Entries.get?_insert_self _ _ _

/-- A schema that is registered for a content type is found under every content type of the same
media type, unless that was registered first in another spelling: then it is found nowhere. Other
media types keep their schemas in any case. Bodies and responses that have the same registrations
have the same schema for a content type. -/
theorem registered_schema_found (earlier : List (String × Schema)) (contentType wanted : String)
    (schema : Schema) :
    (SameMediaType contentType wanted → ¬SpelledOtherwise earlier contentType →
      (ofRegistrations (earlier ++ [(contentType, schema)])).schemaFor? wanted = some schema) ∧
    (SameMediaType contentType wanted → SpelledOtherwise earlier contentType →
      (ofRegistrations (earlier ++ [(contentType, schema)])).schemaFor? wanted =
        (ofRegistrations earlier).schemaFor? wanted) ∧
    (¬SameMediaType contentType wanted →
      (ofRegistrations (earlier ++ [(contentType, schema)])).schemaFor? wanted =
        (ofRegistrations earlier).schemaFor? wanted) ∧
    ∀ (discriminator? : Option Discriminator) (r : Request) (rules : Responses) (status : Nat)
      (found : Schema), rules.lookup status = .ok (ofRegistrations earlier) →
      ((earlier.foldl BodyRule.register { discriminator? }).registered? r = some found ↔
        rules.Governs status r.contentType? found) := by
  rw [ofRegistrations_concat]
  refine ⟨fun same unheld => ?_, fun same held => ?_, fun other => ?_,
    fun discriminator? r rules status found declared => ?_⟩
  · have fits := mediaType_eq_iff.mpr same
    refine schemaFor?_register_self fits fun key isKey => ?_
    by_contra different
    exact unheld (spelledOtherwise_iff.mpr ⟨key, (spelling?_congr fits).trans isKey, different⟩)
  · obtain ⟨key, isKey, different⟩ := spelledOtherwise_iff.mp held
    have fits := mediaType_eq_iff.mpr same
    exact schemaFor?_register_of_held ((spelling?_congr fits).symm.trans isKey) different
  · exact schemaFor?_register_of_other (mt mediaType_eq_iff.mp other)
  · unfold BodyRule.registered? Responses.Governs
    rw [content_foldl_register, declared]
    simp [ofRegistrations]

def jsonTexts : List (String × Schema) := [(defaultContentType, .string)]

theorem json_with_charset : SameMediaType "application/json" "Application/JSON ; charset=utf-8" :=
  mediaType_eq_iff.mp (by decide +kernel)

theorem charset_spelledOtherwise : SpelledOtherwise jsonTexts "Application/JSON ; charset=utf-8" :=
  ⟨[], _, [], rfl, by simp, json_with_charset, by decide⟩

theorem json_not_spelledOtherwise : ¬SpelledOtherwise jsonTexts "application/json" := by
  rintro ⟨before, first, after, split, -, -, different⟩
  have isOnly : first ∈ jsonTexts := by simp [split]
  rw [List.mem_singleton.mp isOnly] at different
  exact different rfl

theorem schemaFor?_jsonTexts :
    (ofRegistrations jsonTexts).schemaFor? "Application/JSON ; charset=utf-8" = some .string := by
  have same : mediaType defaultContentType = mediaType "Application/JSON ; charset=utf-8" :=
    mediaType_eq_iff.mpr json_with_charset
  simp [ofRegistrations, jsonTexts, register, Entries.insert, schemaFor?, same]

/-- Flags replace the texts under every spelling, and bodies and responses agree about the texts.
Numbers that are registered with a charset change nothing, and plain texts have no schema still. -/
theorem flags_found :
    SameMediaType "application/json" "Application/JSON ; charset=utf-8" ∧
      ¬SpelledOtherwise jsonTexts "application/json" ∧
      (ofRegistrations (jsonTexts ++ [("application/json", .boolean)])).schemaFor?
        "Application/JSON ; charset=utf-8" = some .boolean ∧
      SpelledOtherwise jsonTexts "Application/JSON ; charset=utf-8" ∧
      (ofRegistrations (jsonTexts ++ [("Application/JSON ; charset=utf-8", .number)])).schemaFor?
        "Application/JSON ; charset=utf-8" = some .string ∧
      ¬SameMediaType "application/json" "text/plain" ∧
      (ofRegistrations (jsonTexts ++ [("application/json", .boolean)])).schemaFor? "text/plain" =
        (ofRegistrations jsonTexts).schemaFor? "text/plain" ∧
      (Validator.okRules .string).lookup 200 = .ok (ofRegistrations jsonTexts) ∧
      ((jsonTexts.foldl BodyRule.register {}).registered? {} = some .string ↔
        (Validator.okRules .string).Governs 200 none .string) := by
  have other : ¬SameMediaType "application/json" "text/plain" :=
    mt mediaType_eq_iff.mpr (by decide +kernel)
  have declared := Validator.lookup_okRules .string
  obtain ⟨found, -, -, agree⟩ := registered_schema_found jsonTexts "application/json"
    "Application/JSON ; charset=utf-8" .boolean
  obtain ⟨-, hidden, -, -⟩ := registered_schema_found jsonTexts "Application/JSON ; charset=utf-8"
    "Application/JSON ; charset=utf-8" .number
  obtain ⟨-, -, unchanged, -⟩ := registered_schema_found jsonTexts "application/json" "text/plain"
    .boolean
  exact ⟨json_with_charset, json_not_spelledOtherwise,
    found json_with_charset json_not_spelledOtherwise, charset_spelledOtherwise,
    (hidden (mediaType_eq_iff.mp rfl) charset_spelledOtherwise).trans schemaFor?_jsonTexts, other,
    unchanged other, declared, agree none {} (Validator.okRules .string) 200 .string declared⟩

/-- The schema that is registered last for a content type is not the one that is found for it. -/
theorem number_not_found :
    SameMediaType "Application/JSON ; charset=utf-8" "Application/JSON ; charset=utf-8" ∧
      (ofRegistrations (jsonTexts ++ [("Application/JSON ; charset=utf-8", .number)])).schemaFor?
        "Application/JSON ; charset=utf-8" ≠ some .number := by
  obtain ⟨key, held, different⟩ := spelledOtherwise_iff.mp charset_spelledOtherwise
  refine ⟨mediaType_eq_iff.mp rfl, ?_⟩
  rw [ofRegistrations_concat, schemaFor?_register_of_held held different, schemaFor?_jsonTexts]
  simp [Schema.string, Schema.number, Schema.plain]

end Content

end ApiContract

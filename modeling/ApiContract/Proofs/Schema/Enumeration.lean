import ApiContract.Proofs.Schema.Loading
import ApiContract.Proofs.Validation.Branches

/-!
Lists of values and constants.

Only rules for texts and for numbers keep the list of values of a schema object; a constant is a
list of one unless there is a list beside it. What such a rule accepts is in the list as it was
written. Objects that load as anything else take no notice of either keyword.
-/

namespace ApiContract

namespace Json

open Entries

variable {ms : Entries Json} {key : String}

/-- The type of a schema object: the name that it gives, else that of its constant. -/
def typeName? (ms : Entries Json) : Option String :=
  ((ms.get? "type").or (((ms.get? "const").bind constType?).map string)).bind string?

/-- The values that a schema object lists: those of its list, or its constant where it has none. -/
def listed? (ms : Entries Json) : Option (List Json) :=
  ((ms.get? "enum").or ((ms.get? "const").map fun c => array [c])).bind array?

theorem memberWithoutBooleans_eq_self (j : Json)
    (other : key ∉ ["properties", "items", "additionalProperties", "allOf", "oneOf", "anyOf"]) :
    memberWithoutBooleans key j = j := by
  simp only [List.mem_cons, List.not_mem_nil, or_false, not_or] at other
  cases j <;> simp [memberWithoutBooleans, branchKeys, other]

section

variable (distinct : Distinct ms)

include distinct

theorem get?_normalMembers_enum :
    (normalMembers ms).get? "enum" =
      (ms.get? "enum").or ((ms.get? "const").map fun c => array [c]) := by
  have keeps (key : String) (isData : key = "enum" ∨ key = "const") :
      Entries.get? (membersWithoutConst (membersWithoutBooleans ms)) key = ms.get? key := by
    rw [get?_membersWithoutConst]
    rcases isData with rfl | rfl <;> simp [dataKeys, memberWithoutBooleans_eq_self]
  rw [normalMembers, get?_flagNull (by decide),
    get?_scanMembers (distinct_listedMembers distinct) (by decide), listedMembers,
    get?_membersWithNullable, get?_listConst_enum (distinct_membersWithoutConst distinct),
    keeps "enum" (.inl rfl), keeps "const" (.inr rfl)]
  simp [dataKeys]

theorem get?_normalMembers_typeName {t : String} (named : typeName? ms = some t) :
    (normalMembers ms).get? "type" = some (string t) := by
  have listed := distinct_listedMembers distinct
  have given : (listedMembers ms).get? "type" = some (string t) := by
    rw [listedMembers, get?_membersWithNullable,
      get?_listConst_type (distinct_membersWithoutConst distinct), get?_membersWithoutConst,
      get?_membersWithoutConst]
    unfold typeName? at named
    cases isType : ms.get? "type" with
    | some j =>
      cases j <;> simp_all [string?, dataKeys, memberWithoutBooleans, withoutConst, withNullable]
    | none =>
      rw [isType, Option.none_or] at named
      obtain ⟨_, isText, isName⟩ := Option.bind_eq_some_iff.mp named
      obtain ⟨name, ofConst, rfl⟩ := Option.map_eq_some_iff.mp isText
      obtain rfl := Option.some.inj isName
      obtain ⟨c, isConst, typed⟩ := Option.bind_eq_some_iff.mp ofConst
      simp [isConst, dataKeys, memberWithoutBooleans_eq_self, typed, withNullable]
  have flagged : (scanFlag ⟨listedMembers ms, false⟩).members.get? "type" = some (string t) := by
    rw [get?_scanFlag listed (by decide), given]
  have kept : (scanTypes (scanFlag ⟨listedMembers ms, false⟩)).members.get? "type" =
      some (string t) := by
    simp [scanTypes, flagged]
  have start := distinct_scanTypes_scanFlag listed
  rw [normalMembers, get?_flagNull (by decide), scanMembers,
    get?_scanUnion_of_ne (distinct_scanUnion start "oneOf") (by decide) (by decide),
    get?_scanUnion_of_ne start (by decide) (by decide), kept]

end

end Json

namespace Schema

open Json

variable {ms : Entries Json} {node : Schema}

theorem rule_of_shapeOf {raw : Json} {k : Keywords raw} {shape : Shape Schema}
    (loaded : ofNormal.shapeOf k = .ok shape) :
    (∀ rule, shape = .string rule → stringRule k = .ok rule) ∧
      ∀ rule, shape = .number rule → ∃ integer, rule = numberRule k integer := by
  rw [ofNormal.shapeOf] at loaded
  constructor
  all_goals
    rintro rule rfl
    repeat' split at loaded
    all_goals simp_all [Outcome.bind_eq_ok, Outcome.map_eq_ok, Outcome.pure_eq_ok]

theorem allowed_of_reads {k : Keywords (.object ms)} (reads : k.Reads ms) :
    k.allowed = (ms.get? "enum").bind array? := by
  have read := reads.allowed
  unfold stated? at read
  cases given : ms.get? "enum" with
  | none => simpa [given, eq_comm] using read
  | some j => cases j <;> cases isAllowed : k.allowed <;> simp_all [array?]

theorem allowed_of_stringRule {raw : Json} {k : Keywords raw} {rule : StringRule}
    (loaded : stringRule k = .ok rule) :
    rule.allowed = k.allowed.map fun js => js.filterMap string? := by
  obtain ⟨pattern, -, made⟩ := Outcome.bind_eq_ok.mp loaded
  rw [← Outcome.pure_eq_ok.mp made]

/-- A rule for texts or numbers keeps what it can read of the values that are listed. -/
theorem allowed_of_ofJson (distinct : Entries.Distinct ms)
    (loaded : ofJson (.object ms) = .ok node) :
    (∀ rule, node.shape = .string rule →
        rule.allowed = (listed? ms).map fun js => js.filterMap string?) ∧
      ∀ rule, node.shape = .number rule →
        rule.allowed = (listed? ms).map fun js => js.filterMap binary64? := by
  rw [ofJson, normalSchema_object] at loaded
  obtain ⟨k, shape, reads, isShape, rfl⟩ := exists_keywords_of_ofNormal loaded
  have kept : k.allowed = listed? ms := by
    rw [allowed_of_reads reads, get?_normalMembers_enum distinct, listed?]
  obtain ⟨text, number⟩ := rule_of_shapeOf isShape
  rw [← kept]
  refine ⟨fun rule isText => allowed_of_stringRule (text rule isText), fun rule isNumber => ?_⟩
  obtain ⟨integer, rfl⟩ := number rule isNumber
  rfl

/-- Without references and branches the type decides about the shape. -/
theorem shape_of_typeName (distinct : Entries.Distinct ms)
    (plain : ∀ key ∈ ["$ref", "allOf", "oneOf", "anyOf"], ms.get? key = none)
    (loaded : ofJson (.object ms) = .ok node) :
    (typeName? ms = some "string" → ∃ rule, node.shape = .string rule) ∧
      (typeName? ms = some "number" ∨ typeName? ms = some "integer" →
        ∃ rule, node.shape = .number rule) := by
  have wellKeyed : WellKeyed ms := by
    refine ⟨distinct, fun isUnion => ?_⟩
    cases isUnion <;> simp [branchList, plain]
  have noMember (key : String) (isPlain : key ∈ ["$ref", "allOf", "oneOf", "anyOf"]) :
      (normalMembers ms).get? key = none := by
    simp only [List.mem_cons, List.not_mem_nil, or_false] at isPlain
    rcases isPlain with rfl | rfl | rfl | rfl
    · simp [get?_normalMembers distinct, plain]
    · simp [get?_normalMembers_allOf wellKeyed, remainder?, branchList, plain]
    · simp [get?_normalMembers_union wellKeyed .oneOf, plain]
    · simp [get?_normalMembers_union wellKeyed .anyOf, plain]
  rw [ofJson, normalSchema_object] at loaded
  obtain ⟨k, shape, reads, isShape, rfl⟩ := exists_keywords_of_ofNormal loaded
  have noReference : k.reference = none := by
    simpa [stated?, noMember, eq_comm] using reads.reference
  have noAllOf : k.allOf = none := by
    simpa [stated?, noMember, eq_comm] using reads.allOf
  have noOneOf : k.oneOf = none := by
    simpa [stated?, noMember, eq_comm] using reads.oneOf
  have noAnyOf : k.anyOf = none := by
    simpa [stated?, noMember, eq_comm] using reads.anyOf
  have typed {t : String} (named : typeName? ms = some t) : TypeHint.ofKeywords k = .named t := by
    have given := get?_normalMembers_typeName distinct named
    simp [TypeHint.ofKeywords, reads.typeName t (stated?_eq_some.mpr ⟨given, by simp⟩)]
  rw [ofNormal.shapeOf] at isShape
  constructor
  · intro named
    simp only [noReference, noAllOf, noOneOf, noAnyOf, typed named] at isShape
    obtain ⟨rule, -, made⟩ := Outcome.bind_eq_ok.mp isShape
    exact ⟨rule, (Outcome.pure_eq_ok.mp made).symm⟩
  · rintro (named | named)
    all_goals
      simp only [noReference, noAllOf, noOneOf, noAnyOf, typed named] at isShape
      exact ⟨_, (Except.ok.inj isShape).symm⟩

end Schema

section

open Json

variable {v w : Value}

/-- A text that a rule accepts is one of the texts that it lists. -/
theorem StringRule.exists_text_of_reads {rule : StringRule} (reads : rule.Reads v w) :
    ((∃ t, v = .date t) ∨ ∃ bytes, v = .binary bytes) ∧ w = v ∨
      ∃ s, v = .string s ∧
        ∀ js : List Json, rule.allowed = some (js.filterMap string?) → .string s ∈ js := by
  have listed {s : String} (passes : rule.violation? s = none) (js : List Json)
      (isList : rule.allowed = some (js.filterMap string?)) : .string s ∈ js := by
    obtain ⟨-, -, isListed, -⟩ := StringRule.violation?_eq_none_iff.mp passes
    obtain ⟨j, isItem, isText⟩ := List.mem_filterMap.mp (isListed _ isList)
    cases j with
    | string text =>
      obtain rfl := Option.some.inj isText
      exact isItem
    | _ => simp [string?] at isText
  cases reads with
  | date _ => exact .inl ⟨.inl ⟨_, rfl⟩, rfl⟩
  | binary _ => exact .inl ⟨.inr ⟨_, rfl⟩, rfl⟩
  | instant passes _ _ => exact .inr ⟨_, rfl, listed passes⟩
  | text passes _ => exact .inr ⟨_, rfl, listed passes⟩

theorem NumberRule.exists_mem_of_coerce {rule : NumberRule} {readsText : Bool} {js : List Json}
    {x : Binary64} (isList : rule.allowed = some (js.filterMap binary64?))
    (coerced : rule.coerce readsText v = .ok x) :
    ∃ j ∈ js, ∃ y, j.binary64? = some y ∧ x.equals y = true := by
  obtain ⟨-, -, -, passes⟩ := NumberRule.coerce_eq_ok_iff.mp coerced
  obtain ⟨-, -, isListed⟩ := NumberRule.violation?_eq_none_iff.mp passes
  obtain ⟨y, isItem, same⟩ := isListed _ isList
  obtain ⟨j, inList, isNumber⟩ := List.mem_filterMap.mp isItem
  exact ⟨j, inList, y, isNumber, same⟩

end

namespace Validator

open Json

variable {d : Validator} {path : Path} {v w : Value} {parent : Parent} {ms : Entries Json}
  {node : Schema}

theorem accepts_of_concrete (concrete : ¬node.IsReference) (present : v.isNull = false)
    (accepted : (d.validate path v node parent).outcome = .ok w) :
    Accepts d d.validate d.validate path v node parent w :=
  accepts_of_validate_eq_ok present (Document.resolve_of_not_isReference concrete) accepted

/-- Where a schema object loads as a rule for texts or for numbers, which its type or the type of
its constant decides unless there are references or branches, every value that is accepted is one of
its list, and is its constant where there is no list. Texts are compared as they are given, numbers
as they are read. Only instants and binary content that were decoded before are not compared. -/
theorem accepted_is_listed (distinct : Entries.Distinct ms)
    (loaded : Schema.ofJson (.object ms) = .ok node) (present : v.isNull = false)
    (accepted : (d.validate path v node parent).outcome = .ok w) :
    (∀ rule, node.shape = .string rule →
        ((∃ t, v = .date t) ∨ ∃ bytes, v = .binary bytes) ∧ w = v ∨
          ∃ s, v = .string s ∧
            (∀ items, ms.get? "enum" = some (.array items) → .string s ∈ items) ∧
              ∀ c, ms.get? "enum" = none → ms.get? "const" = some c → .string s = c) ∧
      (∀ rule, node.shape = .number rule →
        ∃ x, NumberRule.read? (d.readsText path) v = some x ∧ w = .number x ∧
          (∀ items, ms.get? "enum" = some (.array items) →
            ∃ j ∈ items, ∃ y, j.binary64? = some y ∧ x.equals y = true) ∧
          ∀ c, ms.get? "enum" = none → ms.get? "const" = some c →
            ∃ y, c.binary64? = some y ∧ x.equals y = true) ∧
      ((∀ key ∈ ["$ref", "allOf", "oneOf", "anyOf"], ms.get? key = none) →
        (typeName? ms = some "string" → ∃ rule, node.shape = .string rule) ∧
          (typeName? ms = some "number" ∨ typeName? ms = some "integer" →
            ∃ rule, node.shape = .number rule)) := by
  obtain ⟨texts, numbers⟩ := Schema.allowed_of_ofJson distinct loaded
  have ofEnum {items : List Json} (given : ms.get? "enum" = some (.array items)) :
      listed? ms = some items := by
    simp [listed?, given, array?]
  have ofConst {c : Json} (noEnum : ms.get? "enum" = none) (given : ms.get? "const" = some c) :
      listed? ms = some [c] := by
    simp [listed?, noEnum, given, array?]
  refine ⟨fun rule shape => ?_, fun rule shape => ?_,
    fun plain => Schema.shape_of_typeName distinct plain loaded⟩
  · have concrete : ¬node.IsReference := by simp [Schema.IsReference, shape]
    have reads := (accepts_of_concrete concrete present accepted).of_string shape
    refine (StringRule.exists_text_of_reads reads).imp_right ?_
    rintro ⟨s, rfl, listed⟩
    have inList (js : List Json) (isList : listed? ms = some js) : .string s ∈ js :=
      listed js (by rw [texts rule shape, isList]; rfl)
    exact ⟨s, rfl, fun items given => inList items (ofEnum given),
      fun c noEnum given => List.mem_singleton.mp (inList [c] (ofConst noEnum given))⟩
  · have concrete : ¬node.IsReference := by simp [Schema.IsReference, shape]
    obtain ⟨x, coerced, rfl⟩ := (accepts_of_concrete concrete present accepted).of_number shape
    have inList (js : List Json) (isList : listed? ms = some js) :
        ∃ j ∈ js, ∃ y, j.binary64? = some y ∧ x.equals y = true :=
      NumberRule.exists_mem_of_coerce (by rw [numbers rule shape, isList]; rfl) coerced
    refine ⟨x, (NumberRule.coerce_eq_ok_iff.mp coerced).1, rfl,
      fun items given => inList items (ofEnum given), fun c noEnum given => ?_⟩
    obtain ⟨j, isConst, same⟩ := inList [c] (ofConst noEnum given)
    rwa [List.mem_singleton.mp isConst] at same

def dogMembers : Entries Json := [("const", .string "dog")]

theorem dog_accepted_is_listed :
    Entries.Distinct dogMembers ∧
      Schema.ofJson (.object dogMembers) = .ok (.plain (.string { allowed := some ["dog"] })) ∧
      (validate {} { root := "q" } (.string "dog") (.plain (.string { allowed := some ["dog"] }))
        .unknown).outcome = .ok (.string "dog") ∧
      ∀ c, dogMembers.get? "const" = some c → Json.string "dog" = c := by
  have distinct : Entries.Distinct dogMembers := by simp [Entries.Distinct, dogMembers]
  have loaded := Schema.ofJson_constantText "dog"
  have checked : (checkWithin {} 1 1 { root := "q" } (.string "dog")
      (.plain (.string { allowed := some ["dog"] })) .unknown).outcome = .ok (.string "dog") := rfl
  have accepted := validate_outcome_of_checkWithin checked (by simp)
  refine ⟨distinct, loaded, accepted, ?_⟩
  rcases (accepted_is_listed distinct loaded rfl accepted).1 _ rfl with
    ⟨⟨_, other⟩ | ⟨_, other⟩, -⟩ | ⟨s, same, -, isConst⟩
  · cases other
  · cases other
  · obtain rfl := Value.string.inj same
    exact fun c => isConst c rfl

def untypedList : Entries Json := [("enum", .array [.string "a"])]

def fixedFlag : Entries Json := [("const", .bool true)]

def listAndConstant : Entries Json :=
  [("type", .string "string"), ("enum", .array [.string "a", .string "b"]), ("const", .string "a")]

theorem untypedList_loaded :
    Schema.ofJson (.object untypedList) = .ok (.plain (.unknown (.object untypedList))) := by
  have normal : normalSchema (.object untypedList) = .object untypedList := rfl
  have notExtension : "x-".isPrefixOf "enum" = false := by simp [String.isPrefixOf]
  rw [Schema.ofJson, normal, Schema.ofNormal_of_readFrom (k := { Keywords.blank with
      allowed := some [.string "a"] }) rfl (by constructor <;> rfl)]
  simp [Schema.ofNormal.shapeOf, Schema.TypeHint.ofKeywords, Keywords.blank,
    Schema.isUnconstrained, Schema.annotations, Schema.plain, untypedList, notExtension]

theorem fixedFlag_loaded : Schema.ofJson (.object fixedFlag) = .ok .boolean := by
  have normal : normalSchema (.object fixedFlag) =
      .object [("enum", .array [.bool true]), ("type", .string "boolean")] := rfl
  rw [Schema.ofJson, normal, Schema.ofNormal_of_readFrom (k := { Keywords.blank with
      types := some (.single "boolean"), allowed := some [.bool true] }) rfl
    (by constructor <;> rfl)]
  simp [Schema.ofNormal.shapeOf, Schema.TypeHint.ofKeywords, Keywords.blank, Schema.boolean,
    Schema.plain]

theorem listAndConstant_loaded :
    Schema.ofJson (.object listAndConstant) =
      .ok (.plain (.string { allowed := some ["a", "b"] })) := by
  have normal : normalSchema (.object listAndConstant) =
      .object [("type", .string "string"), ("enum", .array [.string "a", .string "b"])] := rfl
  rw [Schema.ofJson, normal, Schema.ofNormal_of_readFrom (k := { Keywords.blank with
      types := some (.single "string"), allowed := some [.string "a", .string "b"] }) rfl
    (by constructor <;> rfl)]
  simp [Schema.ofNormal.shapeOf, Schema.TypeHint.ofKeywords, Keywords.blank, Schema.stringRule,
    Schema.pattern?, string?, Schema.plain]

/-- A list without a type, a constant that is a flag, and a constant beside a list say nothing about
what is accepted. -/
theorem unlisted_value_accepted :
    (Schema.ofJson (.object untypedList) = .ok (.plain (.unknown (.object untypedList))) ∧
      (validate {} { root := "q" } (.string "b") (.plain (.unknown (.object untypedList)))
        .unknown).outcome = .ok (.string "b") ∧
      ∀ items, untypedList.get? "enum" = some (.array items) → Json.string "b" ∉ items) ∧
    (Schema.ofJson (.object fixedFlag) = .ok .boolean ∧
      (validate {} { root := "q" } (.bool false) .boolean .unknown).outcome = .ok (.bool false) ∧
      ∀ c, fixedFlag.get? "const" = some c → Json.bool false ≠ c) ∧
    Schema.ofJson (.object listAndConstant) =
        .ok (.plain (.string { allowed := some ["a", "b"] })) ∧
      (validate {} { root := "q" } (.string "b") (.plain (.string { allowed := some ["a", "b"] }))
        .unknown).outcome = .ok (.string "b") ∧
      ∀ c, listAndConstant.get? "const" = some c → Json.string "b" ≠ c := by
  have untyped : (checkWithin {} 1 1 { root := "q" } (.string "b")
      (.plain (.unknown (.object untypedList))) .unknown).outcome = .ok (.string "b") := rfl
  have flag : (checkWithin {} 1 1 { root := "q" } (.bool false) .boolean .unknown).outcome =
      .ok (.bool false) := rfl
  have text : (checkWithin {} 1 1 { root := "q" } (.string "b")
      (.plain (.string { allowed := some ["a", "b"] })) .unknown).outcome = .ok (.string "b") := rfl
  refine ⟨⟨untypedList_loaded, validate_outcome_of_checkWithin untyped (by simp), ?_⟩,
    ⟨fixedFlag_loaded, validate_outcome_of_checkWithin flag (by simp), ?_⟩,
    listAndConstant_loaded, validate_outcome_of_checkWithin text (by simp), ?_⟩
  · simp [untypedList, Entries.get?]
  · simp [fixedFlag, Entries.get?]
  · simp [listAndConstant, Entries.get?]

end Validator

end ApiContract

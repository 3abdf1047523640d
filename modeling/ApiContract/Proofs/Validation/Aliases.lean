import ApiContract.Proofs.Document.Resolution
import ApiContract.Proofs.Validation.Recursion

/-!
Flags along a chain of references.

A check looks at the node that it is given and at the node at the end of its references, and the
nodes between the two are only passed. The flags of a whole chain are therefore honoured where those
between its ends add nothing, as on a chain of one reference; an alias of an alias can lose a flag.
-/

namespace ApiContract.Validator

variable {d : Validator} {path : Path} {parent : Parent} {schema first target : Schema}
  {nodes others later : List Schema} {properties : List (String × Schema)} {ps : List Declared}
  {name : String}

/-- Some nodes decide together what a schema makes of null, and whether an input may set a property
that has the schema: null is accepted if one of them is nullable, as the first default among them,
and the property is the server's if one of them is read-only. -/
structure Honours (d : Validator) (schema : Schema) (nodes : List Schema) : Prop where
  null : ∀ path parent, (d.validate path .null schema parent).outcome =
    if nodes.any Schema.nullable then .ok ((nodes.findSome? Schema.default?).getD .null)
    else .error (.invalid (.echoing path .notNullable .null))
  readOnly : ∀ properties ps name, Entries.Distinct properties → (name, schema) ∈ properties →
    declared d.document properties = .ok ps →
      (name ∉ ps.map Declared.name ↔ nodes.any Schema.readOnly = true)

/-- Taken together the flags of some nodes come to the same as those of others. Their default counts
where null is accepted. -/
structure SameFlags (nodes others : List Schema) : Prop where
  nullable : nodes.any Schema.nullable = others.any Schema.nullable
  default? : others.any Schema.nullable = true →
    (nodes.findSome? Schema.default?).getD .null = (others.findSome? Schema.default?).getD .null
  readOnly : nodes.any Schema.readOnly = others.any Schema.readOnly

/-- A node without flags and without a default. -/
structure Bare (node : Schema) : Prop where
  nullable : node.nullable = false
  readOnly : node.readOnly = false
  default? : node.default? = none

theorem outcome_validate_null (resolved : d.document.resolve schema = .ok target) :
    (d.validate path .null schema parent).outcome = (checkNull path schema target).outcome := by
  rw [validate_outcome, step]
  simp [resolved, Except.mapError, Value.isNull]

/-- A property is left to the server by its node and the target of its node. -/
theorem not_mem_declared_iff (distinct : Entries.Distinct properties)
    (isEntry : (name, schema) ∈ properties) (resolved : d.document.resolve schema = .ok target)
    (found : declared d.document properties = .ok ps) :
    name ∉ ps.map Declared.name ↔ (schema.readOnly || target.readOnly) = true := by
  constructor
  · intro hidden
    by_contra writable
    refine hidden (List.mem_map.mpr ⟨⟨name, schema, target⟩, ?_, rfl⟩)
    exact (mem_declared_iff found).mpr ⟨isEntry, resolved, Bool.eq_false_iff.mpr writable⟩
  · intro isReadOnly listed
    obtain ⟨p, isDeclared, rfl⟩ := List.mem_map.mp listed
    obtain ⟨other, resolvedNode, writable⟩ := (mem_declared_iff found).mp isDeclared
    have sameNode := Entries.get?_eq_some_of_mem distinct other
    rw [Entries.get?_eq_some_of_mem distinct isEntry] at sameNode
    obtain rfl := Option.some.inj sameNode
    obtain rfl := Except.ok.inj (resolvedNode.symm.trans resolved)
    rw [Declared.isReadOnly, isReadOnly] at writable
    cases writable

theorem honours_ends (resolved : d.document.resolve schema = .ok target) :
    d.Honours schema [schema, target] where
  null path parent := by
    have default? : [schema, target].findSome? Schema.default? =
        (schema.default? <|> target.default?) := by
      cases schemaDefault : schema.default? <;> cases targetDefault : target.default? <;>
        simp [schemaDefault, targetDefault]
    rw [outcome_validate_null resolved, checkNull, default?]
    simp [Validation.refuse, apply_ite Report.outcome]
  readOnly properties ps name distinct isEntry found := by
    rw [not_mem_declared_iff distinct isEntry resolved found]
    simp

theorem Honours.of_sameFlags (honours : d.Honours schema nodes) (same : SameFlags nodes others) :
    d.Honours schema others where
  null path parent := by
    rw [honours.null, same.nullable]
    split
    · next accepted => rw [same.default? accepted]
    · rfl
  readOnly properties ps name distinct isEntry found := by
    rw [honours.readOnly properties ps name distinct isEntry found, same.readOnly]

/-- What a schema does with null, and with a property, tells the flags that are honoured at it. -/
theorem Honours.sameFlags (honours : d.Honours schema nodes) (also : d.Honours schema others)
    (resolved : d.document.resolve schema = .ok target) : SameFlags nodes others := by
  have same := (honours.null { root := "p" } .unknown).symm.trans (also.null _ _)
  have nullable : nodes.any Schema.nullable = others.any Schema.nullable := by
    cases accepted : nodes.any Schema.nullable <;>
      cases acceptedToo : others.any Schema.nullable <;> simp_all
  refine ⟨nullable, fun accepted => ?_, ?_⟩
  · simpa [nullable, accepted] using same
  · have distinct : Entries.Distinct [("p", schema)] := by simp [Entries.Distinct]
    obtain ⟨ps, found⟩ : ∃ ps, declared d.document [("p", schema)] = .ok ps :=
      exists_declared (by simp [resolved])
    rw [Bool.eq_iff_iff, ← honours.readOnly _ ps "p" distinct (by simp) found,
      also.readOnly _ ps "p" distinct (by simp) found]

theorem honours_iff (honours : d.Honours schema nodes)
    (resolved : d.document.resolve schema = .ok target) :
    d.Honours schema others ↔ SameFlags nodes others :=
  ⟨fun also => honours.sameFlags also resolved, honours.of_sameFlags⟩

theorem sameFlags_of_bare (bare : ∀ node ∈ later.dropLast, Bare node) :
    SameFlags [first, later.getLastD first] (first :: later) := by
  rcases List.eq_nil_or_concat' later with rfl | ⟨between, last, rfl⟩
  · exact ⟨by simp, fun _ => by cases default? : first.default? <;> simp [List.findSome?, default?],
      by simp⟩
  · rw [List.dropLast_concat] at bare
    have nullable : between.any Schema.nullable = false := by
      simpa using fun node isBetween => (bare node isBetween).nullable
    have readOnly : between.any Schema.readOnly = false := by
      simpa using fun node isBetween => (bare node isBetween).readOnly
    have default? : between.findSome? Schema.default? = none :=
      List.findSome?_eq_none_iff.mpr fun node isBetween => (bare node isBetween).default?
    exact ⟨by simp [nullable], fun _ => by simp [List.findSome?_cons, default?], by simp [readOnly]⟩

/-- A check honours the flags at the two ends of a chain of references. Those of the whole chain are
honoured where they come to the same, and so where the nodes between the ends have none. -/
theorem flags_honoured_at_ends (d : Validator) {first : Schema} {later : List Schema}
    (chain : d.document.Chain first later) (ends : ¬(later.getLastD first).IsReference) :
    d.Honours first [first, later.getLastD first] ∧
      (d.Honours first (first :: later) ↔
        SameFlags [first, later.getLastD first] (first :: later)) ∧
      ((∀ node ∈ later.dropLast, Bare node) → d.Honours first (first :: later)) := by
  have resolved : d.document.resolve first = .ok (later.getLastD first) :=
    Document.resolve_of_endsAt ⟨chain.steps, ends⟩
  have honours := honours_ends resolved
  exact ⟨honours, honours_iff honours resolved,
    fun bare => honours.of_sameFlags (sameFlags_of_bare bare)⟩

def nicknames (nickname : Schema) : Validator :=
  { document := ((default : Document).insert "Name" .string).insert "Nickname" nickname }

theorem string_not_isReference : ¬Schema.string.IsReference := by
  rintro ⟨reference, shape⟩
  cases shape

theorem chain_nicknames {nickname : Schema} (shapeOfFirst : first.shape = .ref "Nickname")
    (shape : nickname.shape = .ref "Name") :
    (nicknames nickname).document.Chain first [nickname, .string] :=
  .step (.ref shapeOfFirst rfl) (.step (.ref shape rfl)
    (.final (Document.not_step_of_not_isReference string_not_isReference)))

theorem bare_nickname_honoured :
    (nicknames (.reference "Name")).document.Chain (Schema.reference "Nickname").asNullable
        [.reference "Name", .string] ∧
      ¬Schema.string.IsReference ∧ (∀ node ∈ [Schema.reference "Name"], Bare node) ∧
      (nicknames (.reference "Name")).Honours (Schema.reference "Nickname").asNullable
        [(Schema.reference "Nickname").asNullable, .reference "Name", .string] := by
  have chain : (nicknames (.reference "Name")).document.Chain
      (Schema.reference "Nickname").asNullable [.reference "Name", .string] :=
    chain_nicknames rfl rfl
  have bare : ∀ node ∈ [Schema.reference "Name"], Bare node :=
    List.forall_mem_singleton.mpr ⟨rfl, rfl, rfl⟩
  exact ⟨chain, string_not_isReference, bare,
    (flags_honoured_at_ends _ chain string_not_isReference).2.2 bare⟩

/-- A nickname that may be null, has a value to start with and is set by the server. -/
def flaggedNickname : Schema :=
  { shape := .ref "Name", nullable := true, readOnly := true, default? := some (.string "Rex") }

/-- What is checked against the nickname itself has its flags. Behind one more reference null is
refused, or loses its default, and the property can be set. -/
theorem flaggedNickname_passed_over :
    (nicknames flaggedNickname).document.Chain (.reference "Nickname") [flaggedNickname, .string] ∧
      ((nicknames flaggedNickname).validate { root := "q" } .null flaggedNickname
        .unknown).outcome = .ok (.string "Rex") ∧
      ((nicknames flaggedNickname).validate { root := "q" } .null (.reference "Nickname")
        .unknown).outcome = .error (.invalid (.echoing { root := "q" } .notNullable .null)) ∧
      ((nicknames flaggedNickname).validate { root := "q" } .null
        (Schema.reference "Nickname").asNullable .unknown).outcome = .ok .null ∧
      (declared (nicknames flaggedNickname).document
        [("own", flaggedNickname), ("other", .reference "Nickname")]).map
          (List.map Declared.name) = .ok ["other"] ∧
      ¬(nicknames flaggedNickname).Honours (.reference "Nickname")
        [.reference "Nickname", flaggedNickname, .string] := by
  have checked : ((nicknames flaggedNickname).checkWithin 1 1 { root := "q" } .null
      (.reference "Nickname") .unknown).outcome =
      .error (.invalid (.echoing { root := "q" } .notNullable .null)) := rfl
  have refused := validate_outcome_of_checkWithin checked (by simp)
  refine ⟨chain_nicknames rfl rfl, ?_, refused, ?_, rfl, fun honours => ?_⟩
  · exact (checkWithin_below_validate 1 1).outcome_eq_ok rfl
  · exact (checkWithin_below_validate 1 1).outcome_eq_ok rfl
  · have accepted := honours.null { root := "q" } .unknown
    rw [refused] at accepted
    cases accepted

end ApiContract.Validator

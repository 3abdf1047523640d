import ApiContract.Proofs.Binding.Bodies
import ApiContract.Proofs.Document.Pointers
import ApiContract.Proofs.Document.Resolution
import ApiContract.Proofs.Text.Shortening
import ApiContract.Proofs.Validation.Aliases
import ApiContract.Proofs.Validation.Precedence

/-!
Bodies whose schema is chosen by name.

The name that a discriminator answers with is taken for a reference, and the body is checked against
that. A name without a number sign and a slash refers to the schema of that name; any other name
refers to a schema of another name or to none, so the schema that it names is never looked at.

A reference is not the node that it refers to: between it and the end of a chain of aliases the
flags of the named node count for nothing, and that shows at null.
-/

namespace ApiContract

namespace Reference

variable {name : String} {self : Option String}

/-- A name that can stand as a reference. -/
def IsBare (name : String) : Prop := name ≠ "" ∧ '#' ∉ name.toList ∧ '/' ∉ name.toList

instance (name : String) : Decidable (IsBare name) :=
  inferInstanceAs (Decidable (name ≠ "" ∧ '#' ∉ name.toList ∧ '/' ∉ name.toList))

theorem length_le_intercalate {place : List (List Char)} (isPlace : place ∈ sections)
    (segment : List Char) :
    segment.length ≤ (['/'].intercalate (place ++ [segment])).length := by
  simp only [sections, List.mem_cons, List.not_mem_nil, or_false] at isPlace
  rcases isPlace with rfl | rfl
  · simp [List.intercalate, List.intersperse]
    omega
  · simp [List.intercalate, List.intersperse]
    omega

/-- A name refers to itself exactly if it is bare: a pointer is longer than the name in it. -/
theorem schemaName?_self_iff : schemaName? name self = some name ↔ IsBare name := by
  constructor
  · intro found
    have names := names_of_schemaName?_eq_some found
    generalize spelled : name.toList = cs at names
    cases names with
    | bare some unmarked whole => exact ⟨some, unmarked, whole⟩
    | @pointer document marks segment place _ isLocal opening isPlace free decoded some =>
      obtain ⟨rest, rfl⟩ := opening.exists_cons
      have shorter := length_decodeSegment_le segment
      have within := length_le_intercalate isPlace segment
      have whole := congrArg List.length spelled
      rw [decoded] at shorter
      simp only [List.length_append, List.length_cons] at whole
      omega
  · rintro ⟨some, unmarked, whole⟩
    rw [schemaName?_of_bare unmarked whole]
    exact nonempty?_eq_some_iff.mpr ⟨rfl, some⟩

end Reference

namespace Document

variable {d : Document} {name : String} {node target : Schema}

theorem resolve_reference_of_target? (found : d.target? name = some node)
    (resolved : d.resolve node = .ok target) : d.resolve (.reference name) = .ok target :=
  resolve_of_endsAt ⟨.head (.ref rfl found) (steps_of_resolve_eq_ok resolved),
    not_isReference_of_resolve_eq_ok resolved⟩

theorem resolve_reference_of_dangling (dangling : d.target? name = none) :
    d.resolve (.reference name) = .error (.unresolvable name) :=
  resolve_of_breaksAt ⟨.reference name, .refl, rfl, dangling⟩

/-- Every named schema of a checked document resolves. -/
theorem resolves_of_get?_eq_some (checked : d.checkReferences = .ok ())
    (found : d.get? name = some node) : d.Resolves node := by
  have named : node ∈ Entries.values d.schemas :=
    List.mem_map.mpr ⟨_, Entries.mem_of_get?_eq_some found, rfl⟩
  exact (closed_of_occurs checked ⟨node, named, .here⟩).resolves

theorem checkReferences_of_leaves
    (leaves : ∀ named ∈ Entries.values d.schemas,
      named.children = [] ∧ (named.IsReference → d.Resolves named)) :
    d.checkReferences = .ok () := by
  refine checkReferences_eq_ok_iff.mpr ?_
  rintro node ⟨named, isNamed, occurs⟩ isReference
  obtain ⟨leaf, resolves⟩ := leaves named isNamed
  exact closed_of_children_eq_nil leaf resolves node occurs isReference

end Document

namespace Validator

variable {d : Validator} {rule : BodyRule} {r : Request} {p : Parameter} {choose : Discriminator}
  {name : String} {node target schema : Schema} {body : Value} {path : Path} {parent : Parent}

/-- What a node makes of null is what its target makes of it. -/
structure AddsNothing (node target : Schema) : Prop where
  nullable : node.nullable = true → target.nullable = true
  default? : target.nullable = true →
    (node.default? <|> target.default?).getD .null = target.default?.getD .null

theorem addsNothing_self (node : Schema) : AddsNothing node node where
  nullable := id
  default? _ := by cases node.default? <;> rfl

theorem argumentOf_checkNull : argumentOf (checkNull path schema target).outcome =
    if schema.nullable || target.nullable then
      .ok (.value ((schema.default? <|> target.default?).getD .null))
    else .error (.rejected (.ofFailure .client (.echoing path .notNullable .null))) := by
  unfold checkNull
  split <;> rfl

theorem argumentOf_checkNull_eq_iff (name : String) (node target : Schema) :
    argumentOf (checkNull path (.reference name) target).outcome =
      argumentOf (checkNull path node target).outcome ↔ AddsNothing node target := by
  have plain : (Schema.reference name).nullable = false := rfl
  have unset : ((Schema.reference name).default? <|> target.default?) = target.default? := rfl
  rw [argumentOf_checkNull, argumentOf_checkNull, plain, unset, Bool.false_or]
  cases accepts : target.nullable with
  | true =>
    rw [Bool.or_true, if_pos rfl, if_pos rfl]
    constructor
    · intro same
      exact ⟨fun _ => accepts, fun _ => (Argument.value.inj (Except.ok.inj same)).symm⟩
    · intro nothing
      rw [nothing.default? accepts]
  | false =>
    rw [Bool.or_false, if_neg Bool.false_ne_true]
    constructor
    · intro same
      refine ⟨fun nullable => ?_, fun targetAccepts => absurd (accepts.symm.trans targetAccepts)
        Bool.false_ne_true⟩
      rw [if_pos nullable] at same
      cases same
    · intro nothing
      rw [if_neg fun nullable => absurd (accepts.symm.trans (nothing.nullable nullable))
        Bool.false_ne_true]

/-- A check against a reference is one against the node that it refers to, but for what the flags
of that node add at null. -/
theorem argumentOf_validate_reference_iff (found : d.document.target? name = some node)
    (resolved : d.document.resolve node = .ok target) :
    argumentOf (d.validate path body (.reference name) parent).outcome =
        argumentOf (d.validate path body node parent).outcome ↔
      (body = .null → AddsNothing node target) := by
  have referred := Document.resolve_reference_of_target? found resolved
  by_cases isNull : body = .null
  · subst isNull
    rw [outcome_validate_null referred, outcome_validate_null resolved,
      argumentOf_checkNull_eq_iff name node target]
    exact ⟨fun nothing _ => nothing, fun nothing => nothing rfl⟩
  · -- Away from null only the shape of the target counts, and both chains end there.
    have present : body.isNull = false := by
      cases body <;> first | rfl | exact absurd rfl isNull
    rw [outcome_validate_of_shapes present ⟨target, referred, rfl⟩ ⟨target, resolved, rfl⟩]
    exact ⟨fun _ isNull' => absurd isNull' isNull, fun _ => rfl⟩

/-- A body is bound to what a check against a node makes of it. -/
def BindsAgainst (d : Validator) (rule : BodyRule) (r : Request) (p : Parameter) (body : Value)
    (node : Schema) : Prop :=
  (d.bindParameter (some rule) r p).outcome =
    argumentOf (d.forPayload.validate { root := bodyRoot } body node .unknown).outcome

theorem bindsAgainst_reference (location : p.location = .body)
    (chooses : rule.discriminator? = some choose) (answers : choose r = .ok name)
    (registered : rule.registered? r = some schema) (present : r.body? = some body) :
    d.BindsAgainst rule r p body (.reference name) := by
  have chosen : (bodySchema rule r schema).outcome = .ok (.reference name) := by
    rw [outcome_bodySchema chooses, answers]
    rfl
  rw [BindsAgainst, bindParameter_of_body location, bindBody_of_registered registered,
    Report.outcome_bind_of_eq_ok chosen, bindChosen_of_present present, outcome_accept]

/-- Where a discriminator names the schema, the registered one is not looked at. -/
theorem bindParameter_congr_registered {other : BodyRule} {otherSchema : Schema}
    (location : p.location = .body) (chooses : rule.discriminator? = some choose)
    (choosesToo : other.discriminator? = some choose)
    (registered : rule.registered? r = some schema)
    (registeredToo : other.registered? r = some otherSchema) :
    d.bindParameter (some other) r p = d.bindParameter (some rule) r p := by
  have sameSchema : bodySchema other r otherSchema = bodySchema rule r schema := by
    unfold bodySchema
    rw [chooses, choosesToo]
  rw [bindParameter_of_body location, bindParameter_of_body location,
    bindBody_of_registered registered, bindBody_of_registered registeredToo, sameSchema]

theorem bindsAgainst_iff (refers : d.BindsAgainst rule r p body (.reference name))
    (found : d.document.target? name = some node)
    (resolved : d.document.resolve node = .ok target) :
    d.BindsAgainst rule r p body node ↔ (body = .null → AddsNothing node target) := by
  rw [BindsAgainst, refers]
  exact argumentOf_validate_reference_iff (d := d.forPayload) found resolved

theorem outcome_bindParameter_of_dangling (refers : d.BindsAgainst rule r p body (.reference name))
    (dangling : d.document.target? name = none) :
    (d.bindParameter (some rule) r p).outcome = .error (.schema (.unresolvable name)) := by
  have unresolvable : d.forPayload.document.resolve (.reference name) =
      .error (.unresolvable name) := Document.resolve_reference_of_dangling dangling
  rw [refers, validate_outcome, step, unresolvable]
  rfl

/-- A body whose schema is chosen by name, in a checked document that has a schema of that name, is
checked against a reference that has the name for its text, whatever schema is registered for the
content type. Where the name is bare that is a check against the named schema itself, unless the
body is null and the schema is an alias that adds to what its target makes of null. Any other name
is read as one that it is not: either nothing is found under that one, or a schema that was not
named. -/
theorem discriminated_body_refers (d : Validator) (rule : BodyRule) (r : Request) (p : Parameter)
    {choose : Discriminator} {name : String} {node schema : Schema} {body : Value}
    (checked : d.document.checkReferences = .ok ()) (location : p.location = .body)
    (chooses : rule.discriminator? = some choose) (answers : choose r = .ok name)
    (registered : rule.registered? r = some schema) (present : r.body? = some body)
    (found : d.document.get? name = some node) :
    (∀ other : BodyRule, other.discriminator? = some choose → (other.registered? r).isSome →
      d.bindParameter (some other) r p = d.bindParameter (some rule) r p) ∧
    (Reference.IsBare name → (¬node.IsReference → d.BindsAgainst rule r p body node) ∧
      ∃ target, d.document.resolve node = .ok target ∧
        (d.BindsAgainst rule r p body node ↔ (body = .null → AddsNothing node target))) ∧
    (¬Reference.IsBare name →
      (d.bindParameter (some rule) r p).outcome = .error (.schema (.unresolvable name)) ∨
      ∃ other misread target, other ≠ name ∧
        Reference.schemaName? name d.document.selfUri = some other ∧
        d.document.get? other = some misread ∧ d.document.resolve misread = .ok target ∧
        (d.BindsAgainst rule r p body misread ↔ (body = .null → AddsNothing misread target))) := by
  have refers : d.BindsAgainst rule r p body (.reference name) :=
    bindsAgainst_reference location chooses answers registered present
  refine ⟨fun other choosesToo known => ?_, fun bare => ?_, fun marked => ?_⟩
  · obtain ⟨otherSchema, registeredToo⟩ := Option.isSome_iff_exists.mp known
    exact bindParameter_congr_registered location chooses choosesToo registered registeredToo
  · have named : d.document.target? name = some node := by
      rw [Document.target?, Reference.schemaName?_self_iff.mpr bare, Option.bind_some, found]
    obtain ⟨target, resolved⟩ := Document.resolves_of_get?_eq_some checked found
    have against := bindsAgainst_iff refers named resolved
    refine ⟨fun concrete => against.mpr fun _ => ?_, target, resolved, against⟩
    have isTarget := (Document.resolve_of_not_isReference concrete).symm.trans resolved
    obtain rfl : node = target := Except.ok.inj isTarget
    exact addsNothing_self node
  · cases misnamed : d.document.target? name with
    | none => exact .inl (outcome_bindParameter_of_dangling refers misnamed)
    | some misread =>
      obtain ⟨other, reads, gets⟩ := Option.bind_eq_some_iff.mp misnamed
      obtain ⟨target, resolved⟩ := Document.resolves_of_get?_eq_some checked gets
      refine .inr ⟨other, misread, target, ?_, reads, gets, resolved,
        bindsAgainst_iff refers misnamed resolved⟩
      rintro rfl
      exact marked (Reference.schemaName?_self_iff.mp reads)

/-- Names of pets, nicknames that a pet may lack, and a name with a mark in it. -/
def kennelDocument : Document where
  schemas := [("Name", .string), ("Nickname", (Schema.reference "Name").asNullable),
    ("pets/Cat", .string)]

theorem kennelDocument_checkReferences : kennelDocument.checkReferences = .ok () := by
  refine Document.checkReferences_of_leaves fun named isNamed => ?_
  have known : named = .string ∨ named = (Schema.reference "Name").asNullable ∨
      named = .string := by
    simpa [kennelDocument, Entries.values] using isNamed
  rcases known with rfl | rfl | rfl <;> exact ⟨rfl, fun _ => ⟨.string, rfl⟩⟩

def kennelRule (name : String) : BodyRule where
  content := .json .boolean
  discriminator? := some fun _ => .ok name

def sentTo (body : Value) : Request := ({} : Request).setBody body

/-- A nickname that is there is checked against the schema that was named. -/
theorem nickname_bound_as_named :
    kennelDocument.checkReferences = .ok () ∧ Reference.IsBare "Nickname" ∧
      kennelDocument.get? "Nickname" = some (Schema.reference "Name").asNullable ∧
      BindsAgainst { document := kennelDocument } (kennelRule "Nickname") (sentTo (.string "Rex"))
        (.ofBody "pet") (.string "Rex") (Schema.reference "Name").asNullable := by
  have bare : Reference.IsBare "Nickname" := by decide
  have found : kennelDocument.get? "Nickname" = some (Schema.reference "Name").asNullable := rfl
  obtain ⟨-, named, -⟩ := discriminated_body_refers { document := kennelDocument }
    (kennelRule "Nickname") (sentTo (.string "Rex")) (.ofBody "pet")
    kennelDocument_checkReferences rfl rfl rfl rfl rfl found
  obtain ⟨-, target, -, against⟩ := named bare
  exact ⟨kennelDocument_checkReferences, bare, found, against.mpr (by simp)⟩

/-- A name with a slash is not found although the document has it, and null is refused against a
nickname that may be null. -/
theorem marked_name_and_null_nickname_refused :
    kennelDocument.get? "pets/Cat" = some .string ∧
      (bindParameter { document := kennelDocument } (some (kennelRule "pets/Cat"))
        (sentTo (.string "Tom")) (.ofBody "pet")).outcome =
          .error (.schema (.unresolvable "pets/Cat")) ∧
      ¬BindsAgainst { document := kennelDocument } (kennelRule "pets/Cat") (sentTo (.string "Tom"))
        (.ofBody "pet") (.string "Tom") .string ∧
      ¬BindsAgainst { document := kennelDocument } (kennelRule "Nickname") (sentTo .null)
        (.ofBody "pet") .null (Schema.reference "Name").asNullable := by
  have marked : BindsAgainst { document := kennelDocument } (kennelRule "pets/Cat")
      (sentTo (.string "Tom")) (.ofBody "pet") (.string "Tom") (.reference "pets/Cat") :=
    bindsAgainst_reference rfl rfl rfl rfl rfl
  have refused := outcome_bindParameter_of_dangling marked rfl
  have bare : BindsAgainst { document := kennelDocument } (kennelRule "Nickname") (sentTo .null)
      (.ofBody "pet") .null (.reference "Nickname") :=
    bindsAgainst_reference rfl rfl rfl rfl rfl
  refine ⟨rfl, refused, fun named => ?_, fun named => ?_⟩
  · have checked : ((forPayload { document := kennelDocument }).checkWithin 1 1
        { root := bodyRoot } (.string "Tom") .string .unknown).outcome = .ok (.string "Tom") := rfl
    rw [BindsAgainst, refused, validate_outcome_of_checkWithin checked (by simp)] at named
    cases named
  · have nothing := (bindsAgainst_iff bare rfl rfl).mp named rfl
    exact absurd (nothing.nullable rfl) Bool.false_ne_true

end Validator

end ApiContract

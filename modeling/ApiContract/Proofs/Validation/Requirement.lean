import ApiContract.Proofs.Validation.Members

/-!
What it means that a property is required.

Required names are looked at in the pass over the declared properties, and there only where the
member is missing. So an object is accepted if it would be with nothing required, and if it has a
member for each property that an input may set, that does not accept anything, and whose name is
required. Required names that are not declared make no difference.
-/

namespace ApiContract

namespace ObjectRule

def optional (rule : ObjectRule Schema) : ObjectRule Schema := { rule with required := [] }

/-- Members for the properties that are required, as far as an input may set them and not anything
is accepted for them. -/
def Supplied (rule : ObjectRule Schema) (document : Document) (members : List (String × Value)) :
    Prop :=
  ∀ name node, (name, node) ∈ rule.properties → document.isReadOnly node = false →
    document.isAny node = false → name ∈ rule.required → name ∈ Entries.keys members

end ObjectRule

namespace Validator

open Report

variable {d : Validator} {check : Check} {path : Path} {schema : Schema} {parent : Parent}
  {rule : ObjectRule Schema} {ps : List Declared} {p : Declared}
  {members : List (String × Value)}

theorem isAccepted_checkProperty_iff_optional {required : List String} :
    (checkProperty check path required members p).IsAccepted ↔
      (checkProperty check path [] members p).IsAccepted ∧
        (p.name ∈ required → p.target.isAny = false → p.name ∈ Entries.keys members) := by
  rw [isAccepted_checkProperty_iff, isAccepted_checkProperty_iff, Entries.mem_keys_iff]
  cases Entries.get? members p.name <;> simp

/-- The properties that have to be supplied are among those that are checked. -/
theorem supplied_iff (resolved : declared d.document rule.properties = .ok ps) :
    rule.Supplied d.document members ↔
      ∀ p ∈ ps, p.name ∈ rule.required → p.target.isAny = false →
        p.name ∈ Entries.keys members := by
  constructor
  · intro supplied p isChecked isRequired notAny
    obtain ⟨isProperty, target⟩ := mem_properties_of_mem_declared resolved isChecked
    have writable : (p.name, p.node) ∈ rule.writableProperties d.document := by
      rw [← map_declared resolved]
      exact List.mem_map.mpr ⟨p, isChecked, rfl⟩
    refine supplied p.name p.node isProperty ?_ (Declared.isAny_target target ▸ notAny) isRequired
    simpa using (List.mem_filter.mp writable).2
  · intro supplied name node isProperty writable notAny isRequired
    have isWritable : (name, node) ∈ rule.writableProperties d.document :=
      List.mem_filter.mpr ⟨isProperty, by simp [writable]⟩
    rw [← map_declared resolved] at isWritable
    obtain ⟨p, isChecked, same⟩ := List.mem_map.mp isWritable
    obtain ⟨rfl, rfl⟩ := Prod.mk.inj same
    have target := (mem_properties_of_mem_declared resolved isChecked).2
    exact supplied p isChecked isRequired ((Declared.isAny_target target).trans notAny)

/-- An object is accepted when it is with nothing required, and it has a member for every declared
property that is required, that an input may set and that does not accept anything. -/
theorem required_iff_supplied (d : Validator) (path : Path) (parent : Parent)
    (members : List (String × Value)) (shapes : d.document.Shapes schema (.object rule)) :
    (∃ w, (d.validate path (.object members) schema parent).outcome = .ok w) ↔
      (∃ w, (d.validate path (.object members) (.plain (.object rule.optional))
        parent).outcome = .ok w) ∧ rule.Supplied d.document members := by
  obtain ⟨target, resolved, shape⟩ := shapes
  rw [outcome_validate_object resolved shape, outcome_validate_object
    (Document.resolve_of_not_isReference (by simp [Schema.IsReference, Schema.plain])) rfl]
  change (d.checkObject d.validate path (.object members) rule parent).IsAccepted ↔
    (d.checkObject d.validate path (.object members) rule.optional parent).IsAccepted ∧ _
  cases found : declared d.document rule.properties with
  | error cause =>
    have unresolved (other : ObjectRule Schema) (same : other.properties = rule.properties) :
        ¬(d.checkObject d.validate path (.object members) other parent).IsAccepted := by
      rintro ⟨w, accepted⟩
      obtain ⟨_, ps, _, _, -, resolves, -⟩ := checkObject_eq_ok.mp accepted
      simp [same, found] at resolves
    simp [unresolved rule rfl, unresolved rule.optional rfl]
  | ok ps =>
    have optional : (d.checkObject d.validate path (.object members) rule.optional
        parent).IsAccepted ↔ _ := isAccepted_checkObject_iff found
    have property (p : Declared) :
        (checkProperty d.validate path rule.required members p).IsAccepted ↔ _ :=
      isAccepted_checkProperty_iff_optional
    rw [isAccepted_checkObject_iff found, optional, supplied_iff found, isAccepted_mapM_iff,
      isAccepted_mapM_iff]
    simp only [property, forall_and]
    exact and_right_comm

/-- A deed whose number the server assigns and whose note may be anything. The owner is required and
not declared. -/
def deedRule : ObjectRule Schema where
  properties := [("number", .asReadOnly .string), ("note", .any), ("place", .string)]
  required := ["number", "note", "place", "owner"]

theorem deed_needs_place :
    ({} : Validator).document.Shapes (.plain (.object deedRule)) (.object deedRule) ∧
      (∃ w, (({} : Validator).validate { root := "q" } (.object [("place", .string "Oslo")])
        (.plain (.object deedRule)) .unknown).outcome = .ok w) ∧
      ¬∃ w, (({} : Validator).validate { root := "q" } (.object [("owner", .string "Ada")])
        (.plain (.object deedRule)) .unknown).outcome = .ok w := by
  have shapes : ({} : Validator).document.Shapes (.plain (.object deedRule)) (.object deedRule) :=
    ⟨_, rfl, rfl⟩
  have accepted : (({} : Validator).validate { root := "q" } (.object [("place", .string "Oslo")])
      (.plain (.object deedRule.optional)) .unknown).outcome =
        .ok (.object [("place", .string "Oslo")]) :=
    (checkWithin_below_validate 1 2).outcome_eq_ok rfl
  have supplied : deedRule.Supplied ({} : Validator).document [("place", .string "Oslo")] := by
    intro name node isProperty writable notAny _
    simp only [deedRule, List.mem_cons, Prod.mk.injEq, List.not_mem_nil, or_false] at isProperty
    rcases isProperty with ⟨rfl, rfl⟩ | ⟨rfl, rfl⟩ | ⟨rfl, rfl⟩
    · cases writable
    · cases notAny
    · decide
  have missing : ¬deedRule.Supplied ({} : Validator).document [("owner", .string "Ada")] := by
    intro supplied
    have isKey := supplied "place" .string (by simp [deedRule]) rfl rfl (by decide)
    exact absurd isKey (by decide)
  refine ⟨shapes, (required_iff_supplied {} _ _ _ shapes).mpr ⟨⟨_, accepted⟩, supplied⟩, ?_⟩
  exact fun passed => missing ((required_iff_supplied {} _ _ _ shapes).mp passed).2

/-- A name that is required and not declared is overlooked: the empty object is accepted. -/
theorem undeclared_name_overlooked :
    ({} : Validator).document.Shapes (.object [] ["x"])
        (.object { properties := [], required := ["x"] }) ∧
      (({} : Validator).validate { root := "q" } (.object []) (.object [] ["x"])
        .unknown).outcome = .ok (.object []) ∧
      ({ properties := [], required := ["x"] } : ObjectRule Schema).isReadOnly
        ({} : Validator).document "x" = false ∧
      "x" ∉ Entries.keys ([] : List (String × Schema)) ∧
      "x" ∉ Entries.keys ([] : List (String × Value)) := by
  refine ⟨⟨_, rfl, rfl⟩, (checkWithin_below_validate 1 1).outcome_eq_ok rfl, rfl, ?_, ?_⟩ <;>
    decide

end Validator

end ApiContract

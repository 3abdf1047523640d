import ApiContract.Proofs.Validation.Acceptance
import ApiContract.Proofs.Validation.Recursion

/-!
Read-only properties in a given object.

An input may not set a read-only property, so its key is treated like one that is not declared. It
goes unnoticed exactly where undeclared keys are stripped: there the object is worth the same
without its read-only members, and elsewhere every read-only member changes the outcome.
-/

namespace ApiContract

namespace ObjectRule

/-- Whether a key is declared as read-only, by its node or by what its node refers to. -/
def isReadOnly (rule : ObjectRule Schema) (document : Document) (key : String) : Bool :=
  rule.properties.any fun e =>
    e.1 = key && (e.2.readOnly || (document.resolve e.2).toOption.any Schema.readOnly)

def writable (rule : ObjectRule Schema) (document : Document) (members : List (String × Value)) :
    List (String × Value) :=
  members.filter fun e => !rule.isReadOnly document e.1

theorem get?_writable {rule : ObjectRule Schema} {document : Document}
    {members : List (String × Value)} {key : String}
    (writable : rule.isReadOnly document key = false) :
    Entries.get? (rule.writable document members) key = Entries.get? members key :=
  Entries.get?_filter_keys members (fun key => !rule.isReadOnly document key) (by simp [writable])

end ObjectRule

namespace Validator

variable {d : Validator} {check : Check} {path : Path} {v : Value} {parent : Parent}
  {rule : ObjectRule Schema} {ps : List Declared} {key : String}
  {members undeclared : List (String × Value)}

theorem isReadOnly_of_mem_declared (keyed : Entries.Distinct rule.properties)
    (resolved : declared d.document rule.properties = .ok ps) {p : Declared}
    (isDeclared : p ∈ ps) : rule.isReadOnly d.document p.name = false := by
  obtain ⟨inProperties, target⟩ := mem_properties_of_mem_declared resolved isDeclared
  have writable := not_isReadOnly_of_mem_declared resolved isDeclared
  rw [ObjectRule.isReadOnly, List.any_eq_false]
  rintro ⟨name, node⟩ isEntry protects
  obtain ⟨same, flagged⟩ := Bool.and_eq_true_iff.mp protects
  obtain rfl : name = p.name := of_decide_eq_true same
  have found := Entries.get?_eq_some_of_mem keyed isEntry
  rw [Entries.get?_eq_some_of_mem keyed inProperties] at found
  obtain rfl := Option.some.inj found
  rw [target] at flagged
  simp [Declared.isReadOnly] at writable
  simp [Except.toOption, writable] at flagged

theorem name_ne_of_isReadOnly (keyed : Entries.Distinct rule.properties)
    (resolved : declared d.document rule.properties = .ok ps)
    (readOnly : rule.isReadOnly d.document key = true) {p : Declared} (isDeclared : p ∈ ps) :
    p.name ≠ key := by
  rintro rfl
  simp [isReadOnly_of_mem_declared keyed resolved isDeclared] at readOnly

theorem keys_checkUndeclared_of_not_strips {extra : List (String × Value)}
    (noticed : ¬rule.additional.Strips d.switches parent)
    (accepted : (d.checkUndeclared check path v parent rule undeclared).outcome = .ok extra) :
    extra.map Prod.fst = undeclared.map Prod.fst := by
  by_cases none : undeclared.map Prod.fst = []
  · obtain rfl : undeclared = [] := List.map_eq_nil_iff.mp none
    obtain rfl : [] = extra := by simpa [checkUndeclared, Additional.fate] using accepted
    rfl
  cases fate : rule.additional.fate d.switches parent (undeclared.map Prod.fst) with
  | reject =>
    simp only [checkUndeclared, fate] at accepted
    exact absurd accepted refuse_ne_ok
  | copy =>
    obtain rfl : undeclared = extra := by simpa [checkUndeclared, fate] using accepted
    rfl
  | check node =>
    have checked := (checkUndeclared_eq_ok_of_check fate).mp accepted
    exact keys_of_forall₂ (checked.imp fun _ _ => And.left)
  | warn => exact absurd (Additional.strips_of_fate none (.inr fate)) noticed
  | drop => exact absurd (Additional.strips_of_fate none (.inl fate)) noticed

/-- Where undeclared keys are stripped an object rule does not look at read-only members. -/
theorem outcome_checkObject_writable (keyed : Entries.Distinct rule.properties)
    (strips : rule.additional.Strips d.switches parent) :
    (d.checkObject check path (.object members) rule parent).outcome =
      (d.checkObject check path (.object (rule.writable d.document members)) rule
        parent).outcome := by
  refine outcome_checkObject_of_strips strips fun ps resolved p isDeclared => ?_
  have writable := isReadOnly_of_mem_declared keyed resolved isDeclared
  exact (ObjectRule.get?_writable writable).symm

/-- Where undeclared keys are not stripped, every read-only member shows: in the result, or because
the object is turned down. -/
theorem outcome_checkObject_readOnly_ne (keyed : Entries.Distinct rule.properties)
    (noticed : ¬rule.additional.Strips d.switches parent) (noRequired : rule.required = [])
    (resolved : declared d.document rule.properties = .ok ps)
    (readOnly : rule.isReadOnly d.document key = true) :
    (d.checkObject check path (.object [(key, v)]) rule parent).outcome ≠
      (d.checkObject check path (.object []) rule parent).outcome := by
  have other (p : Declared) (isDeclared : p ∈ ps) : p.name ≠ key :=
    name_ne_of_isReadOnly keyed resolved readOnly isDeclared
  let defaults := ps.map fun p => p.default?.map (p.name, ·)
  have related : List.Forall₂ (fun p result =>
      (checkProperty check path rule.required [] p).outcome = .ok result) ps defaults := by
    refine List.forall₂_map_right_iff.mpr (List.forall₂_same.mpr fun p _ => ?_)
    exact (checkProperty_eq_ok_of_none rfl).mpr (.inr ⟨by simp [noRequired], rfl⟩)
  have empty : (d.checkObject check path (.object []) rule parent).outcome =
      .ok (.object (defaults.filterMap id ++ [])) :=
    checkObject_eq_ok.mpr ⟨[], ps, defaults, [], rfl, resolved, related,
      by simp [checkUndeclared, Additional.fate], rfl⟩
  have named : Named ps defaults := related.imp fun _ _ => name_of_checkProperty_eq_ok
  rw [empty]
  intro accepted
  obtain ⟨members, others, results, extra, isObject, resolvedAgain, -, undeclared, same⟩ :=
    checkObject_eq_ok.mp accepted
  obtain rfl := Value.object.inj isObject
  obtain rfl : ps = others := Except.ok.inj (resolved.symm.trans resolvedAgain)
  have isUndeclared : [(key, v)].filter (fun e => ps.all fun p => p.name ≠ e.1) = [(key, v)] := by
    simpa using other
  rw [isUndeclared] at undeclared
  have keys : extra.map Prod.fst = [key] := keys_checkUndeclared_of_not_strips noticed undeclared
  obtain ⟨e, isExtra, rfl⟩ : ∃ e ∈ extra, e.1 = key := List.mem_map.mp (by simp [keys])
  have shown : e ∈ defaults.filterMap id := by
    rw [List.append_nil] at same
    rw [Value.object.inj same]
    exact List.mem_append_right _ isExtra
  obtain ⟨p, isDeclared, name⟩ := named.exists_of_mem shown
  exact other p isDeclared name.symm

/-- Read-only members make no difference to an object where undeclared keys are stripped, that is,
where they have no schema and the switch that rejects them has no say. Everywhere else each of them
does, already when it is the only member and nothing is required. -/
theorem readOnly_ignored_where_stripped (d : Validator) {schema target : Schema}
    {rule : ObjectRule Schema} (parent : Parent)
    (resolved : d.document.resolve schema = .ok target) (shape : target.shape = .object rule)
    (keyed : Entries.Distinct rule.properties) :
    (rule.additional.Strips d.switches parent →
        ∀ path members,
          (d.validate path (.object members) schema parent).outcome =
            (d.validate path (.object (rule.writable d.document members)) schema
              parent).outcome) ∧
      (¬rule.additional.Strips d.switches parent → rule.required = [] →
        (∀ e ∈ rule.properties, d.document.Resolves e.2) →
        ∀ path key v, rule.isReadOnly d.document key = true →
          (d.validate path (.object [(key, v)]) schema parent).outcome ≠
            (d.validate path (.object (rule.writable d.document [(key, v)])) schema
              parent).outcome) := by
  constructor
  · intro strips path members
    rw [outcome_validate_object resolved shape, outcome_validate_object resolved shape]
    exact outcome_checkObject_writable keyed strips
  · intro noticed noRequired resolves path key v readOnly
    have hidden : rule.writable d.document [(key, v)] = [] := by
      simp [ObjectRule.writable, readOnly]
    rw [hidden, outcome_validate_object resolved shape, outcome_validate_object resolved shape]
    obtain ⟨ps, declares⟩ := exists_declared resolves
    exact outcome_checkObject_readOnly_ne keyed noticed noRequired declares readOnly

/-- An account whose identifier the server assigns: the flag stands behind a reference. -/
def accountDocument : Document := { schemas := [("Id", .asReadOnly .boolean)] }

def accountRule (additional : Additional Schema) : ObjectRule Schema where
  properties := [("id", .reference "Id"), ("name", .string)]
  additional

def account (additional : Additional Schema) : Schema := .plain (.object (accountRule additional))

def givenAccount : List (String × Value) := [("id", .bool true), ("name", .string "Ada")]

theorem account_id_ignored :
    accountDocument.resolve (account (.allowed false)) = .ok (account (.allowed false)) ∧
      (account (.allowed false)).shape = .object (accountRule (.allowed false)) ∧
      Entries.Distinct (accountRule (.allowed false)).properties ∧
      (accountRule (.allowed false)).additional.Strips { logUndeclared := true } .unknown ∧
      (accountRule (.allowed false)).writable accountDocument givenAccount =
        [("name", .string "Ada")] ∧
      (validate { document := accountDocument, switches := { logUndeclared := true } }
          { root := "body" } (.object givenAccount) (account (.allowed false)) .unknown).outcome =
        (validate { document := accountDocument, switches := { logUndeclared := true } }
          { root := "body" } (.object [("name", .string "Ada")]) (account (.allowed false))
          .unknown).outcome := by
  have keyed : Entries.Distinct (accountRule (.allowed false)).properties := by decide
  have strips : (accountRule (.allowed false)).additional.Strips { logUndeclared := true }
      .unknown :=
    Additional.strips_iff.mpr ⟨by simp [accountRule], by simp⟩
  exact ⟨rfl, rfl, keyed, strips, rfl,
    (readOnly_ignored_where_stripped
      { document := accountDocument, switches := { logUndeclared := true } } .unknown rfl rfl
      keyed).1 strips { root := "body" } givenAccount⟩

/-- With the switch that rejects undeclared keys, where others may be kept, an identifier sent by a
client is part of the result. -/
theorem account_id_kept :
    (accountRule (.allowed true)).writable accountDocument [("id", .bool true)] = [] ∧
      (validate { document := accountDocument, switches := { rejectUndeclared := true } }
          { root := "body" } (.object [("id", .bool true)]) (account (.allowed true))
          .unknown).outcome = .ok (.object [("id", .bool true)]) ∧
      (validate { document := accountDocument, switches := { rejectUndeclared := true } }
          { root := "body" } (.object []) (account (.allowed true)) .unknown).outcome =
        .ok (.object []) := by
  have kept : (checkWithin
      { document := accountDocument, switches := { rejectUndeclared := true } } 1 1
      { root := "body" } (.object [("id", .bool true)]) (account (.allowed true))
      .unknown).outcome = .ok (.object [("id", .bool true)]) := rfl
  have none : (checkWithin
      { document := accountDocument, switches := { rejectUndeclared := true } } 1 1
      { root := "body" } (.object []) (account (.allowed true)) .unknown).outcome =
        .ok (.object []) := rfl
  exact ⟨rfl, validate_outcome_of_checkWithin kept (by simp),
    validate_outcome_of_checkWithin none (by simp)⟩

end Validator

end ApiContract

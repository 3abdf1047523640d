import ApiContract.Proofs.Validation.Conformance
import ApiContract.Proofs.Validation.Members

/-!
The failure that a container reports.

The parts of a container are checked one after the other: the items of an array in order, the
properties of an object in order of declaration, and then its other members. The first part that
fails decides, so the error of the container is that of a single part which is checked alone at its
own place.
-/

namespace ApiContract

theorem ArrayRule.countViolation?_eq_none_of_admitsCount {rule : ArrayRule Schema} {count : Nat}
    (admits : rule.AdmitsCount count) : Validator.countViolation? rule count = none := by
  simpa [Validator.countViolation?, Reason.unlessHolds_eq_none_iff, AdmitsCount] using admits

namespace Validator

open Report

variable {d : Validator} {check : Check} {path : Path} {schema : Schema} {parent : Parent}
  {rule : ObjectRule Schema} {ps : List Declared} {items : List Value}
  {members : List (String × Value)}

theorem error?_checkArray {rule : ArrayRule Schema} (admits : rule.AdmitsCount items.length) :
    (checkArray check path (.array items) rule).error? =
      items.zipIdx.findSome? fun e =>
        (check (path.child (.index e.2)) e.1 rule.items .array).error? := by
  simp only [checkArray, ArrayRule.countViolation?_eq_none_of_admitsCount admits]
  rw [error?_bind fun results _ => error?_pure (Value.array results), error?_mapM, Option.or_none]

/-- The error at a property: that of the member, or that a required one is missing. -/
def propertyError? (d : Validator) (path : Path) (rule : ObjectRule Schema)
    (members : List (String × Value)) (property : String × Schema) : Option CheckError :=
  match Entries.get? members property.1 with
  | some v => (d.validate (path.child (.key property.1)) v property.2 .object).error?
  | none =>
    if property.1 ∈ rule.required ∧ d.document.isAny property.2 = false then
      some (.invalid
        { path := path.child (.key property.1), reason := .propertyMissing property.1 })
    else none

/-- The error at the undeclared members: that there are any, where they are rejected, and where
they are checked that of the first one that fails. -/
def undeclaredError? (d : Validator) (path : Path) (rule : ObjectRule Schema) (parent : Parent)
    (members : List (String × Value)) : Option CheckError :=
  let undeclared := rule.undeclared members
  match rule.additional.policy d.switches parent with
  | .reject =>
    if undeclared = [] then none
    else some (.invalid (.echoing path (.undeclaredKeys (Entries.keys undeclared))
      (.object members)))
  | .check node => undeclared.findSome? fun e =>
      (d.validate (path.child (.key e.1)) e.2 node .object).error?
  | _ => none

theorem error?_checkProperty {p : Declared} (resolved : d.document.resolve p.node = .ok p.target) :
    (checkProperty d.validate path rule.required members p).error? =
      d.propertyError? path rule members (p.name, p.node) := by
  unfold checkProperty propertyError?
  cases found : Entries.get? members p.name with
  | some v =>
    simp only
    rw [error?_bind fun w _ => error?_pure (some (p.name, w)), Option.or_none]
  | none =>
    simp only [Declared.isAny_target resolved, List.contains_iff_mem]
    by_cases isRequired : p.name ∈ rule.required
    · cases d.document.isAny p.node <;> simp [isRequired, error?]
    · simp [isRequired, error?]

/-- The properties that an input may set are checked in order of declaration. -/
theorem error?_checkProperties (resolved : declared d.document rule.properties = .ok ps) :
    (ps.mapM (checkProperty d.validate path rule.required members)).error? =
      (rule.writableProperties d.document).findSome? (d.propertyError? path rule members) := by
  have each : ps.map (fun p => (checkProperty d.validate path rule.required members p).error?) =
      ps.map (fun p => d.propertyError? path rule members (p.name, p.node)) :=
    List.map_congr_left fun p isChecked =>
      error?_checkProperty (mem_properties_of_mem_declared resolved isChecked).2
  calc (ps.mapM (checkProperty d.validate path rule.required members)).error?
      = (ps.map fun p =>
          (checkProperty d.validate path rule.required members p).error?).findSome? id := by
        rw [error?_mapM, List.findSome?_map]
        rfl
    _ = ((ps.map fun p => (p.name, p.node)).map
          (d.propertyError? path rule members)).findSome? id := by
        rw [each, List.map_map]
        rfl
    _ = (rule.writableProperties d.document).findSome? (d.propertyError? path rule members) := by
        rw [map_declared resolved, List.findSome?_map]
        rfl

theorem error?_checkUndeclared :
    (d.checkUndeclared d.validate path (.object members) parent rule
      (rule.undeclared members)).error? = d.undeclaredError? path rule parent members := by
  unfold undeclaredError?
  by_cases none : rule.undeclared members = []
  · have unchecked : (d.checkUndeclared d.validate path (.object members) parent rule []).error? =
        Option.none := by
      simp [checkUndeclared, Additional.fate, error?]
    simp only [none, if_true, List.findSome?_nil, unchecked]
    cases rule.additional.policy d.switches parent <;> rfl
  have some : (rule.undeclared members).map Prod.fst ≠ [] := mt List.map_eq_nil_iff.mp none
  rw [← Additional.fate_eq_policy some]
  cases fate : rule.additional.fate d.switches parent ((rule.undeclared members).map Prod.fst) with
  | reject => simp [checkUndeclared, fate, none, error?, Validation.refuse, Entries.keys]
  | check node =>
    rw [checkUndeclared_of_check fate, error?_mapM]
    congr 1
    funext e
    exact (error?_bind fun w _ => error?_pure (e.1, w)).trans (Option.or_none)
  | warn => simp [checkUndeclared, fate, error?]
  | copy => simp [checkUndeclared, fate, error?]
  | drop => simp [checkUndeclared, fate, error?]

/-- The properties come before the other members. -/
theorem error?_checkObject (resolves : ∀ e ∈ rule.properties, d.document.Resolves e.2)
    (writable : ∀ key ∈ Entries.keys members, rule.isReadOnly d.document key = false) :
    (d.checkObject d.validate path (.object members) rule parent).error? =
      ((rule.writableProperties d.document).findSome? (d.propertyError? path rule members)).or
        (d.undeclaredError? path rule parent members) := by
  obtain ⟨ps, resolved⟩ := exists_declared resolves
  unfold checkObject
  simp only [resolved, Except.mapError, ofExcept_ok, pure_bind_report,
    filter_undeclared resolved writable]
  rw [error?_bind fun _ _ => error?_bind fun _ _ => error?_pure _, error?_checkProperties resolved,
    error?_checkUndeclared, Option.or_none]

theorem outcome_validate_array {target : Schema} {rule : ArrayRule Schema}
    (resolved : d.document.resolve schema = .ok target) (shape : target.shape = .array rule) :
    (d.validate path (.array items) schema parent).outcome =
      (checkArray d.validate path (.array items) rule).outcome := by
  rw [validate_outcome, step]
  simp [resolved, shape, Except.mapError, Value.isNull]

theorem exists_results_of_items {rule : ArrayRule Schema}
    (shapes : d.document.Shapes schema (.array rule)) (admits : rule.AdmitsCount items.length)
    (each : ∀ e ∈ items.zipIdx,
      (d.validate (path.child (.index e.2)) e.1 rule.items .array).error? = none) :
    ∃ results, (d.validate path (.array items) schema parent).outcome = .ok (.array results) ∧
      results.length = items.length ∧
      ∀ i item result, items[i]? = some item → results[i]? = some result →
        (d.validate (path.child (.index i)) item rule.items .array).outcome = .ok result := by
  obtain ⟨target, resolved, shape⟩ := shapes
  have none : (checkArray d.validate path (.array items) rule).error? = _ :=
    error?_checkArray admits
  rw [List.findSome?_eq_none_iff.mpr each] at none
  obtain ⟨w, accepted⟩ := error?_eq_none_iff.mp none
  obtain ⟨_, results, isArray, -, related, rfl⟩ := checkArray_eq_ok.mp accepted
  obtain rfl := Value.array.inj isArray
  refine ⟨results, (outcome_validate_array resolved shape).trans accepted,
    by simpa using related.length_eq.symm, fun i item result atItem atResult => ?_⟩
  simpa using forall₂_zipIdx_getElem? related atItem atResult

/-- An array within its bounds, and an object without read-only members, fails with the error of its
first part that fails alone at its own place, and is accepted if none does. The parts of an array
are its items. Those of an object are the properties that an input may set, in order of
declaration, and then its other members, in order of the input. -/
theorem first_failure_reported (d : Validator) (path : Path) (schema : Schema) (parent : Parent) :
    (∀ rule items, d.document.Shapes schema (.array rule) → rule.AdmitsCount items.length →
      (d.validate path (.array items) schema parent).error? =
          items.zipIdx.findSome? (fun e =>
            (d.validate (path.child (.index e.2)) e.1 rule.items .array).error?) ∧
        ((∀ e ∈ items.zipIdx,
            (d.validate (path.child (.index e.2)) e.1 rule.items .array).error? = none) →
          ∃ results,
            (d.validate path (.array items) schema parent).outcome = .ok (.array results) ∧
            results.length = items.length ∧
            ∀ i item result, items[i]? = some item → results[i]? = some result →
              (d.validate (path.child (.index i)) item rule.items .array).outcome =
                .ok result)) ∧
      ∀ rule members, d.document.Shapes schema (.object rule) →
        (∀ e ∈ rule.properties, d.document.Resolves e.2) →
        (∀ key ∈ Entries.keys members, rule.isReadOnly d.document key = false) →
        (d.validate path (.object members) schema parent).error? =
            ((rule.writableProperties d.document).findSome?
              (d.propertyError? path rule members)).or
              (d.undeclaredError? path rule parent members) ∧
          ((∀ property ∈ rule.writableProperties d.document,
              d.propertyError? path rule members property = none) →
            d.undeclaredError? path rule parent members = none →
            ∃ entries, (d.validate path (.object members) schema parent).outcome =
              .ok (.object entries)) := by
  refine ⟨fun rule items shapes admits => ⟨?_, exists_results_of_items shapes admits⟩,
    fun rule members shapes resolves writable => ?_⟩
  · obtain ⟨target, resolved, shape⟩ := shapes
    rw [error?_congr (outcome_validate_array resolved shape), error?_checkArray admits]
  · obtain ⟨target, resolved, shape⟩ := shapes
    have same : (d.validate path (.object members) schema parent).outcome = _ :=
      outcome_validate_object resolved shape
    have reported : (d.checkObject d.validate path (.object members) rule parent).error? = _ :=
      error?_checkObject resolves writable
    refine ⟨(error?_congr same).trans reported, fun properties others => ?_⟩
    rw [List.findSome?_eq_none_iff.mpr properties, others] at reported
    obtain ⟨w, accepted⟩ := error?_eq_none_iff.mp reported
    obtain ⟨_, _, results, extra, -, -, -, -, rfl⟩ := checkObject_eq_ok.mp accepted
    exact ⟨_, same.trans accepted⟩

def marksRule : ArrayRule Schema := { items := .boolean, maxItems := some 3 }

def crateRule : ObjectRule Schema where
  properties := [("id", .asReadOnly .string), ("label", .string),
    ("marks", .reference "Marks"), ("fragile", .boolean), ("to", .string)]
  required := ["to"]

def crate : Schema := .plain (.object crateRule)

def crateKeeper : Validator where
  document := { schemas := [("Marks", .plain (.array marksRule))] }
  switches := { rejectUndeclared := true }

def wrongMarks : List Value := [.bool true, .string "maybe", .string "never"]

def givenCrate : List (String × Value) :=
  [("stamp", .null), ("fragile", .string "very"), ("marks", .array wrongMarks),
    ("label", .string "A")]

def markFailure : CheckError :=
  .invalid (.echoing { root := "body", segments := [.key "marks", .index 1] } .notBoolean
    (.string "maybe"))

theorem crate_reports_second_mark :
    crateKeeper.document.Shapes (.reference "Marks") (.array marksRule) ∧
      marksRule.AdmitsCount wrongMarks.length ∧
      crateKeeper.document.Shapes crate (.object crateRule) ∧
      (∀ e ∈ crateRule.properties, crateKeeper.document.Resolves e.2) ∧
      (∀ key ∈ Entries.keys givenCrate,
        crateRule.isReadOnly crateKeeper.document key = false) ∧
      (crateKeeper.validate { root := "body" } (.object givenCrate) crate .unknown).error? =
        some markFailure ∧
      ((crateRule.writableProperties crateKeeper.document).findSome?
          (crateKeeper.propertyError? { root := "body" } crateRule givenCrate)).or
        (crateKeeper.undeclaredError? { root := "body" } crateRule .unknown givenCrate) =
          some markFailure ∧
      wrongMarks.zipIdx.findSome? (fun e => (crateKeeper.validate
          { root := "body", segments := [.key "marks", .index e.2] } e.1 .boolean .array).error?) =
        some markFailure ∧
      ∃ results, (crateKeeper.validate { root := "q" } (.array [.string "1", .bool false])
          (.reference "Marks") .unknown).outcome = .ok (.array results) ∧
        results.length = 2 := by
  have arrayShapes : crateKeeper.document.Shapes (.reference "Marks")
      (.array marksRule) := ⟨_, rfl, rfl⟩
  have admits : marksRule.AdmitsCount wrongMarks.length := by
    simp [ArrayRule.AdmitsCount, marksRule, wrongMarks]
  have shapes : crateKeeper.document.Shapes crate (.object crateRule) := ⟨_, rfl, rfl⟩
  have resolves : ∀ e ∈ crateRule.properties, crateKeeper.document.Resolves e.2 := by
    simp only [crateRule, List.forall_mem_cons]
    exact ⟨⟨_, rfl⟩, ⟨_, rfl⟩, ⟨_, rfl⟩, ⟨_, rfl⟩, ⟨_, rfl⟩, by simp⟩
  have writable : ∀ key ∈ Entries.keys givenCrate,
      crateRule.isReadOnly crateKeeper.document key = false := by decide
  have failed {path : Path} {v : Value} {schema : Schema} {parent : Parent} {e : CheckError}
      (checked : (crateKeeper.checkWithin 1 3 path v schema parent).outcome = .error e)
      (ends : e ≠ .endless) : (crateKeeper.validate path v schema parent).error? = some e :=
    error?_eq_some_iff.mpr (validate_outcome_of_checkWithin checked (by simpa using ends))
  have passed {path : Path} {v w : Value} {schema : Schema} {parent : Parent}
      (checked : (crateKeeper.checkWithin 1 3 path v schema parent).outcome = .ok w) :
      (crateKeeper.validate path v schema parent).error? = none :=
    error?_eq_none_iff.mpr ⟨w, validate_outcome_of_checkWithin checked (by simp)⟩
  have whole : (crateKeeper.validate { root := "body" } (.object givenCrate) crate
      .unknown).error? = some markFailure := failed rfl (by simp [markFailure])
  have marks : (crateKeeper.validate { root := "body", segments := [.key "marks"] }
      (.array wrongMarks) (.reference "Marks") .object).error? = some markFailure :=
    failed rfl (by simp [markFailure])
  obtain ⟨-, ofObject⟩ := first_failure_reported crateKeeper { root := "body" } crate .unknown
  obtain ⟨ofArray, -⟩ := first_failure_reported crateKeeper
    { root := "body", segments := [.key "marks"] } (.reference "Marks") .object
  obtain ⟨ofPair, -⟩ := first_failure_reported crateKeeper { root := "q" }
    (.reference "Marks") .unknown
  have parts := (ofObject crateRule givenCrate shapes resolves writable).1
  have items := (ofArray marksRule wrongMarks arrayShapes admits).1
  obtain ⟨results, accepted, length, -⟩ := (ofPair marksRule [.string "1", .bool false] arrayShapes
    (by simp [ArrayRule.AdmitsCount, marksRule])).2 (by
      simp only [List.zipIdx_cons, List.zipIdx_nil, List.forall_mem_cons]
      exact ⟨passed (w := .bool true) rfl, passed (w := .bool false) rfl, by simp⟩)
  exact ⟨arrayShapes, admits, shapes, resolves, writable, whole, parts.symm.trans whole,
    items.symm.trans marks, results, accepted, length⟩

end Validator

end ApiContract

import ApiContract.Proofs.Report
import ApiContract.Validation.Composite

/-!
Declared and undeclared keys of an object schema.
-/

namespace ApiContract

theorem Additional.eq_schema_of_fate_eq_check {σ : Type} {rule : Additional σ}
    {switches : Switches} {parent : Parent} {keys : List String} {node : σ}
    (fate : rule.fate switches parent keys = .check node) : rule = .schema node := by
  unfold Additional.fate at fate
  cases rule with
  | schema other =>
    by_cases empty : keys = []
    · simp [empty] at fate
    · simpa [empty] using fate
  | unset => grind
  | allowed flag => grind

theorem Additional.mem_nodes_of_fate_eq_check {σ : Type} {rule : Additional σ} {switches : Switches}
    {parent : Parent} {keys : List String} {node : σ}
    (fate : rule.fate switches parent keys = .check node) : node ∈ rule.nodes := by
  simp [Additional.eq_schema_of_fate_eq_check fate, Additional.nodes]

theorem Additional.allowed_of_fate_eq_copy {σ : Type} {rule : Additional σ} {switches : Switches}
    {parent : Parent} {keys : List String} (fate : rule.fate switches parent keys = .copy) :
    rule = .allowed true ∧ switches.rejectUndeclared = true := by
  unfold Additional.fate at fate
  cases rule <;> grind

/-- Whichever keys are not declared, they are left out of the result, with or without a warning. -/
def Additional.Strips {σ : Type} (rule : Additional σ) (switches : Switches) (parent : Parent) :
    Prop :=
  ∀ keys, rule.fate switches parent keys = .drop ∨ rule.fate switches parent keys = .warn

/-- The fate of some keys does not depend on which they are. -/
theorem Additional.fate_congr {σ : Type} (rule : Additional σ) (switches : Switches)
    (parent : Parent) {keys others : List String} (some : keys ≠ []) (someOther : others ≠ []) :
    rule.fate switches parent keys = rule.fate switches parent others := by
  simp [Additional.fate, some, someOther]

theorem Additional.fate_of_length_eq {σ : Type} (rule : Additional σ) (switches : Switches)
    (parent : Parent) {keys others : List String} (length : keys.length = others.length) :
    rule.fate switches parent others = rule.fate switches parent keys := by
  by_cases none : keys = []
  · subst none
    rw [List.eq_nil_of_length_eq_zero length.symm]
  · have some : others ≠ [] := by
      rintro rfl
      exact none (List.eq_nil_of_length_eq_zero length)
    exact rule.fate_congr switches parent some none

theorem Additional.strips_of_fate {σ : Type} {rule : Additional σ} {switches : Switches}
    {parent : Parent} {keys : List String} (some : keys ≠ [])
    (fate : rule.fate switches parent keys = .drop ∨ rule.fate switches parent keys = .warn) :
    rule.Strips switches parent := by
  intro others
  by_cases none : others = []
  · exact .inl (by simp [none, Additional.fate])
  · rwa [rule.fate_congr switches parent none some]

/-- Undeclared keys are stripped unless they have a schema of their own, or the switch that rejects
them is on outside of an intersection or together with the permission to keep them. -/
theorem Additional.strips_iff {σ : Type} {rule : Additional σ} {switches : Switches}
    {parent : Parent} :
    rule.Strips switches parent ↔
      (∀ node, rule ≠ .schema node) ∧
        (switches.rejectUndeclared = true → parent = .allOf ∧ rule ≠ .allowed true) := by
  constructor
  · intro strips
    have stripped := strips ["key"]
    unfold Additional.fate at stripped
    cases rule <;> grind [Switches.isStrict]
  · rintro ⟨noSchema, lenient⟩ keys
    unfold Additional.fate
    cases rule <;> grind [Switches.isStrict]

/-- Undeclared keys, if there are any, are a reason to turn the object down. -/
def Additional.Rejects {σ : Type} (rule : Additional σ) (switches : Switches) (parent : Parent) :
    Prop :=
  switches.rejectUndeclared = true ∧ parent ≠ .allOf ∧ (rule = .unset ∨ rule = .allowed false)

theorem Additional.fate_eq_reject_iff {σ : Type} {rule : Additional σ} {switches : Switches}
    {parent : Parent} {keys : List String} :
    rule.fate switches parent keys = .reject ↔ keys ≠ [] ∧ rule.Rejects switches parent := by
  unfold Additional.fate Additional.Rejects
  cases rule with
  | allowed flag => cases flag <;> grind [Switches.isStrict]
  | unset => grind [Switches.isStrict]
  | schema node => grind

theorem Additional.fate_of_ne_reject {σ : Type} {rule : Additional σ} {switches : Switches}
    {parent : Parent} {keys : List String} (kept : rule.fate switches parent keys ≠ .reject) :
    rule.fate switches parent keys = rule.fate switches .allOf keys ∨
      rule.fate switches parent keys = .warn ∧ rule.fate switches .allOf keys = .drop := by
  unfold Additional.fate at *
  cases rule with
  | allowed flag => cases flag <;> grind [Switches.isStrict]
  | unset => grind [Switches.isStrict]
  | schema node => grind

namespace Validator

variable {d : Validator} {document : Document} {properties : List (String × Schema)}
  {check : Check} {path : Path} {v : Value} {parent : Parent} {rule : ObjectRule Schema}
  {members others undeclared : List (String × Value)}

theorem declared_eq_ok {ps : List Declared} :
    declared document properties = .ok ps ↔
      ∃ all, List.Forall₂ (fun (e : String × Schema) (p : Declared) =>
          p.name = e.1 ∧ p.node = e.2 ∧ document.resolve e.2 = .ok p.target) properties all ∧
        ps = all.filter fun p => !p.isReadOnly := by
  unfold declared
  rw [Outcome.bind_eq_ok]
  refine exists_congr fun all => ?_
  rw [Outcome.mapM_eq_ok, Outcome.pure_eq_ok, eq_comm (b := ps)]
  refine and_congr_left fun _ => ?_
  have entry (e : String × Schema) (p : Declared) :
      (do return { name := e.1, node := e.2, target := ← document.resolve e.2 : Declared }) =
          Except.ok p ↔
        p.name = e.1 ∧ p.node = e.2 ∧ document.resolve e.2 = .ok p.target := by
    simp only [Outcome.bind_eq_ok, Outcome.pure_eq_ok]
    constructor
    · rintro ⟨target, resolved, rfl⟩
      exact ⟨rfl, rfl, resolved⟩
    · obtain ⟨name, node, target⟩ := p
      rintro ⟨rfl, rfl, resolved⟩
      exact ⟨target, resolved, rfl⟩
  simp only [entry]

theorem exists_unresolved_of_declared_eq_error {cause : SchemaFault}
    (failed : declared document properties = .error cause) :
    ∃ e ∈ properties, document.resolve e.2 = .error cause := by
  unfold declared at failed
  simp only [Outcome.bind_eq_error, Outcome.mapM_eq_error, Outcome.pure_ne_error, and_false,
    exists_false, or_false] at failed
  obtain ⟨before, e, after, rfl, -, unresolved⟩ := failed
  exact ⟨e, by simp, unresolved⟩

theorem exists_declared (resolves : ∀ e ∈ properties, ∃ target, document.resolve e.2 = .ok target) :
    ∃ ps, declared document properties = .ok ps := by
  cases found : declared document properties with
  | ok ps => exact ⟨ps, rfl⟩
  | error cause =>
    obtain ⟨e, isEntry, unresolved⟩ := exists_unresolved_of_declared_eq_error found
    obtain ⟨target, resolved⟩ := resolves e isEntry
    simp [unresolved] at resolved

theorem mem_properties_of_mem_declared {ps : List Declared} {p : Declared}
    (resolved : declared document properties = .ok ps) (membership : p ∈ ps) :
    (p.name, p.node) ∈ properties ∧ document.resolve p.node = .ok p.target := by
  obtain ⟨all, entries, rfl⟩ := declared_eq_ok.mp resolved
  obtain ⟨e, inProperties, name, node, target⟩ :=
    Outcome.exists_mem_left_of_forall₂ entries (List.mem_filter.mp membership).1
  rw [name, node]
  exact ⟨inProperties, target⟩

theorem not_isReadOnly_of_mem_declared {ps : List Declared} {p : Declared}
    (resolved : declared document properties = .ok ps) (membership : p ∈ ps) :
    p.isReadOnly = false := by
  obtain ⟨all, -, rfl⟩ := declared_eq_ok.mp resolved
  simpa using (List.mem_filter.mp membership).2

theorem Declared.eq_of_resolve {p q : Declared} (name : q.name = p.name) (node : q.node = p.node)
    (first : document.resolve p.node = .ok q.target)
    (second : document.resolve p.node = .ok p.target) : q = p := by
  obtain ⟨_, _, _⟩ := p
  obtain ⟨_, _, _⟩ := q
  subst name node
  obtain rfl := Except.ok.inj (first.symm.trans second)
  rfl

/-- A property that an object schema lets an input set. -/
structure Offers (document : Document) (properties : List (String × Schema)) (p : Declared) :
    Prop where
  isEntry : (p.name, p.node) ∈ properties
  resolved : document.resolve p.node = .ok p.target
  writable : p.isReadOnly = false

theorem mem_declared_iff {ps : List Declared} {p : Declared}
    (resolved : declared document properties = .ok ps) :
    p ∈ ps ↔ Offers document properties p := by
  constructor
  · intro isDeclared
    obtain ⟨isEntry, target⟩ := mem_properties_of_mem_declared resolved isDeclared
    exact ⟨isEntry, target, not_isReadOnly_of_mem_declared resolved isDeclared⟩
  · rintro ⟨isEntry, target, writable⟩
    obtain ⟨all, entries, rfl⟩ := declared_eq_ok.mp resolved
    obtain ⟨q, inAll, name, node, resolvedNode⟩ :=
      Outcome.exists_mem_right_of_forall₂ entries isEntry
    obtain rfl : q = p := Declared.eq_of_resolve name node resolvedNode target
    exact List.mem_filter.mpr ⟨inAll, by simp [writable]⟩

theorem exists_cons_of_declared {ps : List Declared} (p : Declared)
    (first : ∃ others, properties = (p.name, p.node) :: others)
    (target : document.resolve p.node = .ok p.target) (writable : p.isReadOnly = false)
    (resolved : declared document properties = .ok ps) : ∃ rest, ps = p :: rest := by
  obtain ⟨others, rfl⟩ := first
  obtain ⟨all, entries, rfl⟩ := declared_eq_ok.mp resolved
  obtain ⟨q, rest, ⟨name, node, qTarget⟩, -, rfl⟩ := List.forall₂_cons_left_iff.mp entries
  obtain rfl : q = p := Declared.eq_of_resolve name node qTarget target
  exact ⟨rest.filter fun p => !p.isReadOnly, by simp [writable]⟩

theorem nodup_names_of_declared {ps : List Declared} (distinct : Entries.Distinct properties)
    (resolved : declared document properties = .ok ps) : (ps.map Declared.name).Nodup := by
  obtain ⟨all, entries, rfl⟩ := declared_eq_ok.mp resolved
  have names : all.map Declared.name = Entries.keys properties := by
    clear distinct resolved
    induction entries with
    | nil => rfl
    | cons first _ ih => simp [first.1, ih]
  have allDistinct : (all.map Declared.name).Nodup := names ▸ distinct
  exact allDistinct.sublist (List.filter_sublist.map Declared.name)

theorem checkProperty_congr {required : List String} {p : Declared}
    (same : Entries.get? members p.name = Entries.get? others p.name) :
    checkProperty check path required members p = checkProperty check path required others p := by
  unfold checkProperty
  rw [same]

theorem outcome_checkUndeclared_of_strips (strips : rule.additional.Strips d.switches parent) :
    (d.checkUndeclared check path v parent rule undeclared).outcome = .ok [] := by
  unfold checkUndeclared
  rcases strips (undeclared.map Prod.fst) with fate | fate <;> simp [fate]

theorem outcome_checkObject_of_strips (strips : rule.additional.Strips d.switches parent)
    (same : ∀ ps, declared d.document rule.properties = .ok ps → ∀ p ∈ ps,
      Entries.get? members p.name = Entries.get? others p.name) :
    (d.checkObject check path (.object members) rule parent).outcome =
      (d.checkObject check path (.object others) rule parent).outcome := by
  unfold checkObject
  simp only [Report.outcome_bind_eq, Report.outcome_ofExcept, Report.outcome_mapM,
    outcome_checkUndeclared_of_strips strips]
  cases resolved : declared d.document rule.properties with
  | error cause => rfl
  | ok ps =>
    have results : (ps.mapM fun p => (checkProperty check path rule.required members p).outcome) =
        ps.mapM fun p => (checkProperty check path rule.required others p).outcome := by
      refine Outcome.mapM_congr fun p isDeclared => ?_
      rw [checkProperty_congr (same ps resolved p isDeclared)]
    simp only [Except.mapError, bind, Except.bind]
    rw [results]

end Validator

end ApiContract

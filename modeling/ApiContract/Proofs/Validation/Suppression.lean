import ApiContract.Proofs.Document.Writable
import ApiContract.Proofs.Validation.Retention
import ApiContract.Proofs.Value.Order

/-!
Checks against writable parts.

A check never gets to see a read-only property as a declared one: it reports what it reports with
the writable parts of its schema and of its document, unless a fault of the schema ends it. So it
is at every depth and in every composite, since a step of the one check repeats a step of the other
as long as the checks below do.

What comes through of a read-only member is therefore what the policy for undeclared keys lets
through.
-/

namespace ApiContract

namespace Report

variable {α β : Type} {x y : Report CheckError α}

def IsFaulty (x : Report CheckError α) : Prop := ∃ cause, x.outcome = .error (.schema cause)

/-- The second report repeats the first one, unless that one is faulty. -/
def Repeats (x y : Report CheckError α) : Prop := x.IsFaulty ∨ y = x

theorem isFaulty_fail (cause : SchemaFault) :
    (fail (.schema cause) : Report CheckError α).IsFaulty := ⟨cause, rfl⟩

theorem IsFaulty.bind (faulty : x.IsFaulty) (f : α → Report CheckError β) :
    (x >>= f).IsFaulty := by
  obtain ⟨cause, outcome⟩ := faulty
  exact ⟨cause, outcome_bind_eq_error.mpr (.inl outcome)⟩

theorem IsFaulty.ends (faulty : x.IsFaulty) : x.Ends := by
  obtain ⟨cause, outcome⟩ := faulty
  simp [Ends, outcome]

theorem IsFaulty.of_below (faulty : x.IsFaulty) (below : x.Below y) : y.IsFaulty := by
  rwa [below faulty.ends]

theorem Repeats.refl (x : Report CheckError α) : x.Repeats x := .inr rfl

theorem Repeats.bind {f g : α → Report CheckError β} (first : x.Repeats y)
    (rest : ∀ a, x.outcome = .ok a → (f a).Repeats (g a)) : (x >>= f).Repeats (y >>= g) := by
  rcases first with faulty | rfl
  · exact .inl (faulty.bind f)
  cases outcome : y.outcome with
  | ok a =>
    rcases rest a outcome with ⟨cause, later⟩ | same
    · exact .inl ⟨cause, outcome_bind_eq_error.mpr (.inr ⟨a, outcome, later⟩)⟩
    · right
      simp only [bind_def, Report.bind, outcome, same]
  | error e =>
    right
    simp only [bind_def, Report.bind, outcome]

theorem Repeats.mapM {inputs : List α} {f g : α → Report CheckError β}
    (each : ∀ a ∈ inputs, (f a).Repeats (g a)) : (inputs.mapM f).Repeats (inputs.mapM g) := by
  induction inputs with
  | nil => exact .refl _
  | cons a rest ih =>
    rw [List.mapM_cons, List.mapM_cons]
    apply (each a List.mem_cons_self).bind
    intro b _
    apply (ih fun c later => each c (List.mem_cons_of_mem a later)).bind
    intro bs _
    exact .refl _

end Report

def Fate.map {σ τ : Type} (f : σ → τ) : Fate σ → Fate τ
  | .reject => .reject
  | .warn => .warn
  | .copy => .copy
  | .check node => .check (f node)
  | .drop => .drop

theorem Additional.fate_map {σ τ : Type} (f : σ → τ) (rule : Additional σ) (switches : Switches)
    (parent : Parent) (keys : List String) :
    (rule.map f).fate switches parent keys = (rule.fate switches parent keys).map f := by
  unfold fate
  cases rule with
  | allowed flag => cases flag <;> grind [map, Fate.map]
  | unset => grind [map, Fate.map]
  | schema node => grind [map, Fate.map]

namespace Validator

open Report

variable {d : Validator} {document : Document} {check check' inside inside' across across' : Check}
  {path : Path} {v : Value} {schema : Schema} {parent : Parent} {rule : ObjectRule Schema}
  {branches : List Schema} {p : Declared} {ps : List Declared}
  {members undeclared : List (String × Value)}

def writable (d : Validator) : Validator := { d with document := d.document.writable }

/-- The second check reports of writable parts what the first one reports of the schemas. -/
def Mirrors (document : Document) (check check' : Check) : Prop :=
  ∀ path v schema parent,
    (check path v schema parent).Repeats (check' path v (schema.writable document) parent)

def Declared.writable (document : Document) (p : Declared) : Declared where
  name := p.name
  node := p.node.writable document
  target := p.target.writable document

@[simp] theorem Declared.isReadOnly_writable :
    (p.writable document).isReadOnly = p.isReadOnly := by
  simp [writable, isReadOnly]

@[simp] theorem Declared.default?_writable : (p.writable document).default? = p.default? := by
  simp [writable, default?]

theorem declared_writable (resolved : declared document rule.properties = .ok ps) :
    declared document.writable
        ((rule.restricted document).map (Schema.writable document)).properties =
      .ok (ps.map (Declared.writable document)) := by
  rw [ObjectRule.map, ObjectRule.restricted, ← map_declared resolved]
  refine declared_eq_ok.mpr ⟨ps.map (Declared.writable document), ?_, ?_⟩
  · rw [Entries.mapValues, List.map_map, List.forall₂_map_left_iff, List.forall₂_map_right_iff,
      List.forall₂_same]
    intro p isDeclared
    obtain ⟨-, target⟩ := mem_properties_of_mem_declared resolved isDeclared
    refine ⟨rfl, rfl, ?_⟩
    exact (document.resolve_writable p.node).trans (by rw [target]; rfl)
  · symm
    rw [List.filter_eq_self]
    intro q isWritable
    obtain ⟨p, isDeclared, rfl⟩ := List.mem_map.mp isWritable
    simp [not_isReadOnly_of_mem_declared resolved isDeclared]

theorem checkProperty_repeats (mirrors : Mirrors document check check') (required : List String) :
    (checkProperty check path required members p).Repeats
      (checkProperty check' path required members (p.writable document)) := by
  unfold checkProperty
  simp only [Declared.default?_writable]
  cases found : Entries.get? members p.name with
  | some v =>
    simp only [Declared.writable, found]
    apply (mirrors _ v p.node _).bind
    intro w _
    exact .refl _
  | none =>
    simp only [Declared.writable, found, Schema.isAny_writable]
    exact .refl _

theorem checkUndeclared_repeats (mirrors : Mirrors document check check') :
    (d.checkUndeclared check path v parent rule undeclared).Repeats
      (d.writable.checkUndeclared check' path v parent
        ((rule.restricted document).map (Schema.writable document)) undeclared) := by
  unfold checkUndeclared
  simp only [ObjectRule.map, ObjectRule.restricted, Additional.fate_map, Validator.writable]
  cases rule.additional.fate d.switches parent (undeclared.map Prod.fst) with
  | check node =>
    apply Repeats.mapM
    intro e _
    apply (mirrors _ e.2 node _).bind
    intro w _
    exact .refl _
  | _ => exact .refl _

theorem checkArray_repeats {rule : ArrayRule Schema} (mirrors : Mirrors document check check') :
    (checkArray check path v rule).Repeats
      (checkArray check' path v { rule with items := rule.items.writable document }) := by
  unfold checkArray
  cases v with
  | array items =>
    have sameBounds : countViolation? { rule with items := rule.items.writable document }
        items.length = countViolation? rule items.length := rfl
    simp only [sameBounds]
    cases countViolation? rule items.length with
    | some reason => exact .refl _
    | none =>
      apply Repeats.bind (.mapM fun e _ => mirrors _ e.1 rule.items _)
      intro results _
      exact .refl _
  | _ => exact .refl _

theorem checkObject_repeats (mirrors : Mirrors d.document check check') :
    (d.checkObject check path v rule parent).Repeats
      (d.writable.checkObject check' path v
        ((rule.restricted d.document).map (Schema.writable d.document)) parent) := by
  unfold checkObject
  cases v with
  | object members =>
    cases resolved : declared d.document rule.properties with
    | error cause => exact .inl ((isFaulty_fail cause).bind _)
    | ok ps =>
      have names : (members.filter fun e =>
          (ps.map (Declared.writable d.document)).all fun p => p.name ≠ e.1) =
            members.filter fun e => ps.all fun p => p.name ≠ e.1 := by
        apply List.filter_congr
        intro e _
        rw [List.all_map]
        rfl
      simp only [Validator.writable, declared_writable resolved, Except.mapError, ofExcept_ok,
        pure_bind_report, List.mapM_map]
      rw [names]
      apply Repeats.bind (.mapM fun p _ => checkProperty_repeats mirrors rule.required)
      intro entries _
      apply (checkUndeclared_repeats mirrors).bind
      intro extra _
      exact .refl _
  | _ => exact .refl _

theorem checkAllOf_repeats (mirrors : Mirrors document check check') :
    (checkAllOf check path v branches).Repeats
      (checkAllOf check' path v (branches.map (Schema.writable document))) := by
  unfold checkAllOf
  rw [List.mapM_map]
  apply Repeats.bind (.mapM fun branch _ => mirrors path v branch _)
  intro results _
  exact .refl _

theorem tryBranch_repeats (mirrors : Mirrors document check check') (branch : Schema)
    (index : Nat) :
    (tryBranch check path v branch index).Repeats
      (tryBranch check' path v (branch.writable document) index) := by
  unfold tryBranch
  rcases mirrors path v branch .oneOf with ⟨cause, faulty⟩ | same
  · left
    refine ⟨cause, outcome_bind_eq_error.mpr (.inr ⟨.error (.schema cause), ?_, rfl⟩)⟩
    rw [outcome_attempt, faulty]
  · rw [same]
    exact .refl _

theorem checkOneOf_repeats (mirrors : Mirrors document check check') :
    (checkOneOf check path v branches).Repeats
      (checkOneOf check' path v (branches.map (Schema.writable document))) := by
  unfold checkOneOf
  rw [List.zipIdx_map, List.mapM_map]
  apply Repeats.bind (.mapM fun e _ => tryBranch_repeats mirrors e.1 e.2)
  intro results _
  exact .refl _

theorem step_mirrors (insideMirrors : Mirrors d.document inside inside')
    (acrossMirrors : Mirrors d.document across across') :
    Mirrors d.document (d.step inside across) (d.writable.step inside' across') := by
  intro path v schema parent
  have resolves : d.writable.document.resolve (schema.writable d.document) =
      (d.document.resolve schema).map (Schema.writable d.document) :=
    d.document.resolve_writable schema
  unfold step
  rw [resolves]
  cases d.document.resolve schema with
  | error cause => exact .inl ((isFaulty_fail cause).bind _)
  | ok target =>
    simp only [Except.map, Except.mapError, ofExcept_ok, pure_bind_report]
    by_cases isNull : v.isNull = true
    · simp only [isNull, if_true, checkNull, Schema.nullable_writable, Schema.default?_writable]
      exact .refl _
    simp only [isNull, Schema.shape_writable]
    cases target.shape with
    | array rule => exact checkArray_repeats insideMirrors
    | object rule => exact checkObject_repeats insideMirrors
    | allOf branches => exact checkAllOf_repeats acrossMirrors
    | oneOf branches => exact checkOneOf_repeats acrossMirrors
    | _ => exact .refl _

theorem checkWithin_mirrors (d : Validator) (links levels : Nat) :
    Mirrors d.document (d.checkWithin links levels) (d.writable.checkWithin links levels) := by
  apply checkWithin_induction₂ (R := Mirrors d.document) d d.writable
  · intro path v schema parent
    exact .refl _
  · intro inside inside' across across' insideMirrors acrossMirrors
    exact step_mirrors insideMirrors acrossMirrors

/-- A check is faulty, or the check against writable parts comes out the same. -/
theorem outcome_validate_writable (d : Validator) (path : Path) (v : Value) (schema : Schema)
    (parent : Parent) :
    (d.validate path v schema parent).IsFaulty ∨
      (d.writable.validate path v (schema.writable d.document) parent).outcome =
        (d.validate path v schema parent).outcome := by
  by_cases faulty : (d.validate path v schema parent).IsFaulty
  · exact .inl faulty
  right
  -- Both checks stand in one relation within any bounds, those of either check among them.
  have own := checkWithin_mirrors d (d.nodeCount schema) (v.depth + 1) path v schema parent
  have other := checkWithin_mirrors d (d.writable.nodeCount (schema.writable d.document))
    (v.depth + 1) path v schema parent
  apply Below.outcome_eq
  · intro ends
    rcases other with early | same
    · exact absurd (early.of_below (checkWithin_below_validate _ _)) faulty
    · have below : (d.checkWithin (d.writable.nodeCount (schema.writable d.document)) (v.depth + 1)
          path v schema parent).Below (d.validate path v schema parent) :=
        checkWithin_below_validate _ _
      rw [← same] at below
      exact below ends
  · intro ends
    rcases own with early | same
    · exact absurd early faulty
    · have below : (d.writable.checkWithin (d.nodeCount schema) (v.depth + 1) path v
          (schema.writable d.document) parent).Below
            (d.writable.validate path v (schema.writable d.document) parent) :=
        checkWithin_below_validate _ _
      rw [same] at below
      exact below ends

/-- What the policy for undeclared keys lets through of a member: a copy of it, or what the schema
for such keys makes of it. -/
inductive Carries (d : Validator) (path : Path) (rule : ObjectRule Schema) (parent : Parent)
    (key : String) (v : Value) : Value → Prop
  | copied : rule.additional.policy d.switches parent = .copy →
      Carries d path rule parent key v v
  | coerced {node w} : rule.additional.policy d.switches parent = .check node →
      (d.validate (path.child (.key key)) v node .object).outcome = .ok w →
      Carries d path rule parent key v w

theorem get?_of_keeps {extra : List (String × Value)} {key : String} {w : Value}
    (keeps : d.Keeps path rule parent undeclared extra)
    (found : Entries.get? undeclared key = some v) :
    Entries.get? extra key = some w ↔ d.Carries path rule parent key v w := by
  cases keeps with
  | none empty =>
    subst empty
    simp at found
  | copied policy =>
    rw [found]
    constructor
    · intro same
      obtain rfl := Option.some.inj same
      exact .copied policy
    · rintro (_ | ⟨otherPolicy, _⟩)
      · rfl
      · simp [policy] at otherPolicy
  | @coerced node extra policy checked =>
    have related := Entries.forall₂_under (R := fun key v w =>
      (d.validate (path.child (.key key)) v node .object).outcome = .ok w) checked key
    rw [Entries.get?_eq_head?] at found ⊢
    obtain ⟨others, isHead⟩ := List.head?_eq_some_iff.mp found
    rw [isHead] at related
    obtain ⟨result, results, accepted, -, under⟩ := List.forall₂_cons_left_iff.mp related
    rw [under, List.head?_cons]
    constructor
    · intro same
      obtain rfl := Option.some.inj same
      exact .coerced policy accepted
    · rintro (otherPolicy | ⟨otherPolicy, again⟩)
      · simp [policy] at otherPolicy
      · obtain rfl := Fate.check.inj (policy.symm.trans otherPolicy)
        rw [Except.ok.inj (accepted.symm.trans again)]
  | stripped policy =>
    constructor
    · simp
    · rintro (otherPolicy | ⟨otherPolicy, _⟩) <;> simp [otherPolicy] at policy

/-- An accepted object has under a read-only key what the policy for undeclared keys lets through
of the member, and so nothing where that is nothing. -/
theorem get?_of_isReadOnly {entries : List (String × Value)} {key : String} {w : Value}
    (keyed : Entries.Distinct rule.properties)
    (accepted : (d.checkObject d.validate path (.object members) rule parent).outcome =
      .ok (.object entries))
    (readOnly : rule.isReadOnly d.document key = true)
    (found : Entries.get? members key = some v) :
    Entries.get? entries key = some w ↔ d.Carries path rule parent key v w := by
  obtain ⟨_, ps, results, extra, isObject, resolved, related, kept, same⟩ :=
    checkObject_eq_ok.mp accepted
  obtain rfl := Value.object.inj isObject
  obtain rfl := Value.object.inj same
  have named : Named ps results := related.imp fun _ _ => name_of_checkProperty_eq_ok
  have other (p : Declared) (isDeclared : p ∈ ps) : p.name ≠ key :=
    name_ne_of_isReadOnly keyed resolved readOnly isDeclared
  have unsupplied (e : String × Value) (isResult : e ∈ results.filterMap id) : e.1 ≠ key := by
    obtain ⟨p, isDeclared, name⟩ := named.exists_of_mem isResult
    exact name ▸ other p isDeclared
  have isUndeclared : (ps.all fun p => p.name ≠ key) = true := by simpa using other
  rw [Entries.get?_append unsupplied]
  apply get?_of_keeps (keeps_of_checkUndeclared_eq_ok kept)
  rw [Entries.get?_filter_keys members (fun name => ps.all fun p => p.name ≠ name) isUndeclared,
    found]

end Validator

end ApiContract

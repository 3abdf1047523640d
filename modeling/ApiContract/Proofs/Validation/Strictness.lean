import ApiContract.Proofs.Document.Assemblies
import ApiContract.Proofs.Validation.Verdicts

/-!
What the switch that rejects undeclared keys changes for an object.

An assembly is put together from objects by references, intersections and unions. The switch turns
an object rule down only where it has excess keys (`Excess`), and it has none directly inside an
intersection. A union is a parent of its own, however: its branches are judged for undeclared keys
also where the union is itself a branch of an intersection, and there the keys of a sibling count
as undeclared. `Owns` says which accepted values an assembly still accepts with the switch on.
-/

namespace ApiContract

namespace Report

variable {α : Type} {x y z : Report CheckError α} {kept other : Prop}

/-- The second report turns down what the first one does, and what is not kept. -/
structure Tightens (x y : Report CheckError α) (kept : Prop) : Prop where
  accepts : x.IsAccepted → kept → y.IsAccepted
  refuses : x.IsAccepted → ¬kept → y.IsRefused
  stays : x.IsRefused → y.IsRefused

theorem Tightens.isDecided (tightens : x.Tightens y kept) (decided : x.IsDecided) :
    y.IsDecided := by
  rcases decided with accepted | refused
  · by_cases keeps : kept
    · exact .inl (tightens.accepts accepted keeps)
    · exact .inr (tightens.refuses accepted keeps)
  · exact .inr (tightens.stays refused)

theorem Tightens.isAccepted_iff (tightens : x.Tightens y kept) (decided : x.IsDecided) :
    y.IsAccepted ↔ x.IsAccepted ∧ kept := by
  constructor
  · intro passed
    rcases decided with accepted | refused
    · refine ⟨accepted, ?_⟩
      by_contra lost
      exact passed.not_isRefused (tightens.refuses accepted lost)
    · exact absurd (tightens.stays refused) passed.not_isRefused
  · rintro ⟨accepted, keeps⟩
    exact tightens.accepts accepted keeps

theorem Tightens.congr (tightens : x.Tightens y kept)
    (same : x.IsAccepted → (kept ↔ other)) : x.Tightens y other where
  accepts accepted keeps := tightens.accepts accepted ((same accepted).mpr keeps)
  refuses accepted lost := tightens.refuses accepted (mt (same accepted).mp lost)
  stays := tightens.stays

theorem Tightens.of_outcome_eqs {x' y' : Report CheckError α} (tightens : x.Tightens y kept)
    (first : x'.outcome = x.outcome) (second : y'.outcome = y.outcome) : x'.Tightens y' kept := by
  obtain ⟨accepts, refuses, stays⟩ := tightens
  constructor <;> simpa only [IsAccepted, IsRefused, first, second]

theorem Tightens.of_below (below : x.Below y) (tightens : y.Tightens z kept) :
    x.Tightens z kept where
  accepts accepted := tightens.accepts (below.isAccepted accepted)
  refuses accepted := tightens.refuses (below.isAccepted accepted)
  stays refused := tightens.stays (below.isRefused refused)

end Report

namespace Validator

open Report

variable {d : Validator} {check check' inside across : Check} {path : Path} {v : Value}
  {parent : Parent} {schema : Schema} {branches : List Schema} {rule : ObjectRule Schema}
  {members : List (String × Value)} {kept : Schema → Prop}

theorem tightens_checkAllOf
    (each : ∀ branch ∈ branches,
      (check path v branch .allOf).Tightens (check' path v branch .allOf) (kept branch)) :
    (checkAllOf check path v branches).Tightens (checkAllOf check' path v branches)
      (∀ branch ∈ branches, kept branch) := by
  have refused {before after : List Schema} {branch : Schema}
      (split : branches = before ++ branch :: after)
      (decided : ∀ b ∈ before, (check path v b .allOf).IsDecided)
      (refuses : (check' path v branch .allOf).IsRefused) :
      (checkAllOf check' path v branches).IsRefused := by
    rw [isRefused_checkAllOf_iff, split]
    refine isRefused_mapM_of_decided (fun b isBefore => ?_) refuses
    exact (each b (by simp [split, isBefore])).isDecided (decided b isBefore)
  constructor
  · intro accepted keeps
    rw [isAccepted_checkAllOf_iff] at accepted ⊢
    exact fun branch isBranch =>
      (each branch isBranch).accepts (accepted branch isBranch) (keeps branch isBranch)
  · intro accepted lost
    rw [isAccepted_checkAllOf_iff] at accepted
    push Not at lost
    obtain ⟨branch, isBranch, lost⟩ := lost
    obtain ⟨before, after, split⟩ := List.append_of_mem isBranch
    refine refused split (fun b isBefore => .inl (accepted b (by simp [split, isBefore]))) ?_
    exact (each branch isBranch).refuses (accepted branch isBranch) lost
  · intro refusedBefore
    obtain ⟨before, branch, after, split, passed, refuses⟩ :=
      isRefused_mapM_iff.mp (isRefused_checkAllOf_iff.mp refusedBefore)
    refine refused split (fun b isBefore => .inl (passed b isBefore)) ?_
    exact (each branch (by simp [split])).stays refuses

theorem tightens_checkOneOf
    (each : ∀ branch ∈ branches,
      (check path v branch .oneOf).Tightens (check' path v branch .oneOf) (kept branch)) :
    (checkOneOf check path v branches).Tightens (checkOneOf check' path v branches)
      (∃ branch ∈ branches, (check path v branch .oneOf).IsAccepted ∧ kept branch) := by
  constructor
  · intro accepted keeps
    rw [isAccepted_checkOneOf_iff] at accepted ⊢
    obtain ⟨branch, isBranch, passed, keeps⟩ := keeps
    refine ⟨fun b isBranch => (each b isBranch).isDecided (accepted.1 b isBranch), ?_⟩
    exact ⟨branch, isBranch, (each branch isBranch).accepts passed keeps⟩
  · intro accepted lost
    have decided := (isAccepted_checkOneOf_iff.mp accepted).1
    rw [isRefused_checkOneOf_iff]
    intro branch isBranch
    rcases decided branch isBranch with passed | refused
    · exact (each branch isBranch).refuses passed fun keeps =>
        lost ⟨branch, isBranch, passed, keeps⟩
    · exact (each branch isBranch).stays refused
  · intro refused
    rw [isRefused_checkOneOf_iff] at refused ⊢
    exact fun branch isBranch => (each branch isBranch).stays (refused branch isBranch)

def rejecting (d : Validator) : Validator :=
  { d with switches := { d.switches with rejectUndeclared := true } }

theorem outcome_rejecting_of_isScalar {shape : Shape Schema}
    (shapes : d.document.Shapes schema shape) (scalar : shape.IsScalar) :
    (d.rejecting.validate path v schema parent).outcome =
      (d.validate path v schema parent).outcome := by
  obtain ⟨target, resolved, rfl⟩ := shapes
  generalize isShape : target.shape = shape at scalar
  rw [validate_outcome, validate_outcome]
  cases scalar <;>
    simp [step, resolved, isShape, rejecting, checkNumber, readsText, Except.mapError]

theorem outcome_checkProperty_rejecting {required : List String} {p : Declared}
    (scalar : ∃ shape, d.document.Shapes p.node shape ∧ shape.IsScalar) :
    (checkProperty d.rejecting.validate path required members p).outcome =
      (checkProperty d.validate path required members p).outcome := by
  obtain ⟨shape, shapes, scalar⟩ := scalar
  unfold checkProperty
  cases Entries.get? members p.name with
  | none => rfl
  | some v => simp only [outcome_bind_eq, outcome_rejecting_of_isScalar shapes scalar]

theorem isAccepted_checkUndeclared_of_lenient {undeclared : List (String × Value)}
    (lenient : d.switches.rejectUndeclared = false)
    (noSchema : ∀ node, rule.additional ≠ .schema node) :
    (d.checkUndeclared check path v parent rule undeclared).IsAccepted := by
  have strips : rule.additional.Strips d.switches parent :=
    Additional.strips_iff.mpr ⟨noSchema, by simp [lenient]⟩
  exact ⟨[], outcome_checkUndeclared_of_strips strips⟩

theorem isAccepted_checkUndeclared_of_not_excess {ps : List Declared}
    (resolved : declared d.document rule.properties = .ok ps)
    (noSchema : ∀ node, rule.additional ≠ .schema node)
    (fitting : ¬d.Excess rule parent members) :
    (d.checkUndeclared check path v parent rule
      (members.filter fun e => ps.all fun p => p.name ≠ e.1)).IsAccepted := by
  rw [← fate_eq_reject_iff_excess resolved] at fitting
  unfold checkUndeclared
  cases fate : rule.additional.fate d.switches parent
      ((members.filter fun e => ps.all fun p => p.name ≠ e.1).map Prod.fst) with
  | reject => exact absurd fate fitting
  | check node => exact absurd (Additional.eq_schema_of_fate_eq_check fate) (noSchema node)
  | _ => exact ⟨_, by simp only [fate]; rfl⟩

theorem tightens_checkObject (lenient : d.switches.rejectUndeclared = false)
    (noSchema : ∀ node, rule.additional ≠ .schema node)
    (scalars : ∀ e ∈ rule.properties, ∃ shape, d.document.Shapes e.2 shape ∧ shape.IsScalar) :
    (d.checkObject d.validate path (.object members) rule parent).Tightens
      (d.rejecting.checkObject d.rejecting.validate path (.object members) rule parent)
      (¬d.rejecting.Excess rule parent members) := by
  cases resolved : declared d.document rule.properties with
  | error cause =>
    have faulty : (d.checkObject d.validate path (.object members) rule parent).outcome =
        .error (.schema cause) := by
      simp [checkObject, resolved, Except.mapError]
    constructor <;> simp [IsAccepted, IsRefused, faulty]
  | ok ps =>
    have resolvedAlike : declared d.rejecting.document rule.properties = .ok ps := resolved
    have properties :
        (ps.mapM (checkProperty d.rejecting.validate path rule.required members)).outcome =
          (ps.mapM (checkProperty d.validate path rule.required members)).outcome := by
      rw [outcome_mapM, outcome_mapM]
      refine Outcome.mapM_congr fun p isDeclared => outcome_checkProperty_rejecting ?_
      exact scalars _ (mem_properties_of_mem_declared resolved isDeclared).1
    constructor
    · intro accepted fitting
      have passed := ((isAccepted_checkObject_iff resolved).mp accepted).1
      refine (isAccepted_checkObject_iff resolvedAlike).mpr ⟨?_, ?_⟩
      · rwa [IsAccepted, properties]
      · exact isAccepted_checkUndeclared_of_not_excess resolvedAlike noSchema fitting
    · intro accepted excess
      have passed := ((isAccepted_checkObject_iff resolved).mp accepted).1
      refine (isRefused_checkObject_iff resolvedAlike).mpr (.inr ⟨?_, ?_⟩)
      · rwa [IsAccepted, properties]
      · apply isRefused_checkUndeclared_of_fate
        exact (fate_eq_reject_iff_excess resolvedAlike).mpr (not_not.mp excess)
    · intro refused
      refine (isRefused_checkObject_iff resolvedAlike).mpr (.inl ?_)
      rw [IsRefused, properties]
      rcases (isRefused_checkObject_iff resolved).mp refused with refused | ⟨-, refused⟩
      · exact refused
      · exact absurd refused (isAccepted_checkUndeclared_of_lenient lenient noSchema).not_isRefused

/-- The parts of an assembly that judge undeclared keys leave none over: every branch of an
intersection, and a branch of a union that accepts the value. -/
inductive Owns (d : Validator) (path : Path) (members : List (String × Value)) :
    Parent → Schema → Prop
  | object {parent s rule} : d.document.Shapes s (.object rule) →
      ¬d.rejecting.Excess rule parent members → Owns d path members parent s
  | allOf {parent s branches} : d.document.Shapes s (.allOf branches) →
      (∀ branch ∈ branches, Owns d path members .allOf branch) → Owns d path members parent s
  | oneOf {parent s branches branch} : d.document.Shapes s (.oneOf branches) → branch ∈ branches →
      (d.validate path (.object members) branch .oneOf).IsAccepted →
      Owns d path members .oneOf branch → Owns d path members parent s

theorem owns_object_iff (shapes : d.document.Shapes schema (.object rule)) :
    d.Owns path members parent schema ↔ ¬d.rejecting.Excess rule parent members := by
  constructor
  · intro owns
    cases owns with
    | object other fitting =>
      obtain rfl := Shape.object.inj (shapes.unique other)
      exact fitting
    | allOf other | oneOf other => cases shapes.unique other
  · exact .object shapes

theorem owns_allOf_iff (shapes : d.document.Shapes schema (.allOf branches)) :
    d.Owns path members parent schema ↔ ∀ branch ∈ branches, d.Owns path members .allOf branch := by
  constructor
  · intro owns
    cases owns with
    | allOf other each =>
      obtain rfl := Shape.allOf.inj (shapes.unique other)
      exact each
    | object other | oneOf other => cases shapes.unique other
  · exact .allOf shapes

theorem owns_oneOf_iff (shapes : d.document.Shapes schema (.oneOf branches)) :
    d.Owns path members parent schema ↔
      ∃ branch ∈ branches, (d.validate path (.object members) branch .oneOf).IsAccepted ∧
        d.Owns path members .oneOf branch := by
  constructor
  · intro owns
    cases owns with
    | oneOf other isBranch passed owns =>
      obtain rfl := Shape.oneOf.inj (shapes.unique other)
      exact ⟨_, isBranch, passed, owns⟩
    | object other | allOf other => cases shapes.unique other
  · rintro ⟨branch, isBranch, passed, owns⟩
    exact .oneOf shapes isBranch passed owns

/-- Of an object value every assembly accepts with the switch on what it accepts and owns. -/
def Judges (d : Validator) (check : Check) : Prop :=
  ∀ path members schema parent, d.document.Assembly schema →
    (check path (.object members) schema parent).Tightens
      (d.rejecting.validate path (.object members) schema parent)
      (d.Owns path members parent schema)

theorem judges_giveUp (d : Validator) : d.Judges giveUp := by
  intro path members schema parent _
  constructor <;> simp [giveUp, IsAccepted, IsRefused]

theorem judges_step (lenient : d.switches.rejectUndeclared = false)
    (insideBelow : ∀ path v schema parent,
      (inside path v schema parent).Below (d.validate path v schema parent))
    (acrossBelow : ∀ path v schema parent,
      (across path v schema parent).Below (d.validate path v schema parent))
    (acrossJudges : d.Judges across) : d.Judges (d.step inside across) := by
  intro path members schema parent assembly
  have branch (node : Schema) (parent : Parent) (isBranch : d.document.Branch schema node) :
      (across path (.object members) node parent).Tightens
        (d.rejecting.validate path (.object members) node parent)
        (d.Owns path members parent node) :=
    acrossJudges path members node parent (assembly.branch isBranch)
  cases assembly schema .refl with
  | @object rule shapes noSchema scalars =>
    have objects : (d.checkObject inside path (.object members) rule parent).Tightens
        (d.rejecting.checkObject d.rejecting.validate path (.object members) rule parent)
        (d.Owns path members parent schema) := by
      rw [owns_object_iff shapes]
      refine .of_below (checkObject_below fun _ _ _ _ _ => insideBelow _ _ _ _) ?_
      exact tightens_checkObject lenient noSchema scalars
    refine objects.of_outcome_eqs (outcome_step_object shapes rfl) ?_
    rw [validate_outcome, outcome_step_object (d := d.rejecting) shapes rfl]
  | @allOf branches shapes =>
    have intersections : (checkAllOf across path (.object members) branches).Tightens
        (checkAllOf d.rejecting.validate path (.object members) branches)
        (d.Owns path members parent schema) := by
      rw [owns_allOf_iff shapes]
      exact tightens_checkAllOf fun node isBranch =>
        branch node .allOf (.intersected shapes isBranch)
    refine intersections.of_outcome_eqs (outcome_step_allOf shapes rfl) ?_
    rw [validate_outcome, outcome_step_allOf (d := d.rejecting) shapes rfl]
  | @oneOf branches shapes =>
    have unions : (checkOneOf across path (.object members) branches).Tightens
        (checkOneOf d.rejecting.validate path (.object members) branches)
        (d.Owns path members parent schema) := by
      refine (tightens_checkOneOf fun node isBranch =>
        branch node .oneOf (.alternative shapes isBranch)).congr fun accepted => ?_
      rw [owns_oneOf_iff shapes]
      refine exists_congr fun node => and_congr_right fun isBranch => and_congr_left fun _ => ?_
      refine ⟨(acrossBelow _ _ _ _).isAccepted, fun accepts => ?_⟩
      rcases (isAccepted_checkOneOf_iff.mp accepted).1 node isBranch with passed | refused
      · exact passed
      · exact absurd ((acrossBelow _ _ _ _).isRefused refused) accepts.not_isRefused
    refine unions.of_outcome_eqs (outcome_step_oneOf shapes rfl) ?_
    rw [validate_outcome, outcome_step_oneOf (d := d.rejecting) shapes rfl]

theorem judges_validate (lenient : d.switches.rejectUndeclared = false) : d.Judges d.validate := by
  intro path members schema parent assembly
  refine (checkWithin_induction d (P := fun check =>
    (∀ path v schema parent, (check path v schema parent).Below (d.validate path v schema parent)) ∧
      d.Judges check) ⟨fun _ _ _ _ => giveUp_below, judges_giveUp d⟩ ?_ _ _).2 path members schema
    parent assembly
  rintro inside across ⟨insideBelow, -⟩ ⟨acrossBelow, acrossJudges⟩
  exact ⟨fun _ _ _ _ => step_below_validate insideBelow acrossBelow,
    judges_step lenient insideBelow acrossBelow acrossJudges⟩

theorem not_excess_of_allOf (d : Validator) : ¬d.Excess rule .allOf members :=
  fun excess => excess.1.2.1 rfl

/-- A check of an intersection without unions accepts only what the intersection owns. -/
def Shelters (d : Validator) (check : Check) : Prop :=
  ∀ path members schema parent, d.document.Assembly schema →
    (∀ node, d.document.Spans schema node → ∀ branches, ¬d.document.Shapes node (.oneOf branches)) →
    (parent = .allOf ∨ ∃ branches, d.document.Shapes schema (.allOf branches)) →
    (check path (.object members) schema parent).IsAccepted → d.Owns path members parent schema

theorem shelters_giveUp (d : Validator) : d.Shelters giveUp := by
  rintro path members schema parent _ _ _ ⟨w, accepted⟩
  simp [giveUp] at accepted

theorem shelters_step (acrossShelters : d.Shelters across) : d.Shelters (d.step inside across) := by
  intro path members schema parent assembly noUnion sheltered accepted
  cases assembly schema .refl with
  | object shapes =>
    rcases sheltered with rfl | ⟨branches, other⟩
    · exact .object shapes (not_excess_of_allOf _)
    · cases shapes.unique other
  | oneOf shapes => exact absurd shapes (noUnion schema .refl _)
  | @allOf branches shapes =>
    rw [IsAccepted, outcome_step_allOf shapes rfl] at accepted
    refine .allOf shapes fun node isBranch => ?_
    have branch : d.document.Branch schema node := .intersected shapes isBranch
    apply acrossShelters path members node .allOf (assembly.branch branch)
    · exact fun other spans => noUnion other (.head branch spans)
    · exact .inl rfl
    · exact isAccepted_checkAllOf_iff.mp accepted node isBranch

theorem shelters_validate (d : Validator) : d.Shelters d.validate := by
  intro path members schema parent
  exact checkWithin_induction d (shelters_giveUp d) (fun _ _ _ => shelters_step) _ _ path members
    schema parent

/-- The switch that rejects undeclared keys takes from what an assembly accepts the values that it
does not own, and nothing from an intersection that spans no union. -/
theorem rejecting_accepts_iff (lenient : d.switches.rejectUndeclared = false)
    (assembly : d.document.Assembly schema)
    (decided : (d.validate path (.object members) schema parent).IsDecided) :
    ((d.rejecting.validate path (.object members) schema parent).IsAccepted ↔
      (d.validate path (.object members) schema parent).IsAccepted ∧
        d.Owns path members parent schema) ∧
    ((∃ branches, d.document.Shapes schema (.allOf branches)) →
      (∀ node, d.document.Spans schema node →
        ∀ branches, ¬d.document.Shapes node (.oneOf branches)) →
      ((d.rejecting.validate path (.object members) schema parent).IsAccepted ↔
        (d.validate path (.object members) schema parent).IsAccepted)) := by
  have judged :=
    (judges_validate lenient path members schema parent assembly).isAccepted_iff decided
  refine ⟨judged, fun isIntersection noUnion => judged.trans (and_iff_left_of_imp ?_)⟩
  exact shelters_validate d path members schema parent assembly noUnion (.inr isIntersection)

theorem assembly_of_scalars {document : Document} {properties : List (String × Schema)}
    {required : List String}
    (scalars : ∀ e ∈ properties, ∃ shape, document.Shapes e.2 shape ∧ shape.IsScalar) :
    document.Assembly (.object properties required) := by
  refine Document.assembly_object ⟨_, rfl, rfl⟩ (by simp) fun e isEntry => ?_
  exact scalars e ((Entries.mem_of_mem_extend isEntry).resolve_left List.not_mem_nil)

def named : Schema := .object [("first", .string), ("last", .string)] ["first"]

def contact : Schema := .object [("first", .string), ("adult", .boolean), ("email", .string)] []

def person : Schema :=
  .allOf [.reference "Named", .allOf [.object [("adult", .boolean)] []],
    .oneOf [.object [("phone", .string)] ["phone"], contact]]

def personDirectory : Validator := { document := { schemas := [("Named", named)] } }

def personMembers : List (String × Value) :=
  [("first", .string "Ada"), ("adult", .string "1"), ("email", .string "ada@example.org")]

theorem string_shapes {document : Document} :
    ∃ shape, document.Shapes .string shape ∧ shape.IsScalar :=
  ⟨_, ⟨_, rfl, rfl⟩, .string⟩

theorem boolean_shapes {document : Document} :
    ∃ shape, document.Shapes .boolean shape ∧ shape.IsScalar :=
  ⟨_, ⟨_, rfl, rfl⟩, .boolean⟩

theorem person_assembly : personDirectory.document.Assembly person := by
  have reference : personDirectory.document.Assembly (.reference "Named") := by
    refine Document.assembly_object ⟨named, rfl, rfl⟩ (by simp) ?_
    simp [Entries.ofList, Entries.extend, Entries.insert, string_shapes]
  have adult : personDirectory.document.Assembly (.object [("adult", .boolean)] []) :=
    assembly_of_scalars (by simp [boolean_shapes])
  have phone : personDirectory.document.Assembly (.object [("phone", .string)] ["phone"]) :=
    assembly_of_scalars (by simp [string_shapes])
  have contact : personDirectory.document.Assembly contact :=
    assembly_of_scalars (by simp [string_shapes, boolean_shapes])
  refine Document.assembly_allOf ⟨person, rfl, rfl⟩ ?_
  simp only [List.forall_mem_cons, List.not_mem_nil, false_imp_iff, implies_true, and_true]
  refine ⟨reference, Document.assembly_allOf ⟨_, rfl, rfl⟩ ?_,
    Document.assembly_oneOf ⟨_, rfl, rfl⟩ ?_⟩
  · simpa using adult
  · simpa using ⟨phone, contact⟩

theorem person_owned :
    personDirectory.Owns { root := "q" } personMembers .unknown person := by
  have accepted : (personDirectory.validate { root := "q" } (.object personMembers) contact
      .oneOf).IsAccepted :=
    (checkWithin_below_validate 1 2).isAccepted ⟨_, rfl⟩
  have complete : ¬personDirectory.rejecting.Excess
      { properties := [("first", .string), ("adult", .boolean), ("email", .string)] } .oneOf
      personMembers := by
    rintro ⟨-, key, isKey, undeclared⟩
    have isDeclared : key ∈ ["first", "adult", "email"] := isKey
    simp only [List.mem_cons, List.not_mem_nil, or_false] at isDeclared
    rcases isDeclared with rfl | rfl | rfl
    · exact undeclared ⟨"first", .string, .string⟩ ⟨by simp, rfl, rfl⟩ rfl
    · exact undeclared ⟨"adult", .boolean, .boolean⟩ ⟨by simp, rfl, rfl⟩ rfl
    · exact undeclared ⟨"email", .string, .string⟩ ⟨by simp, rfl, rfl⟩ rfl
  refine .allOf ⟨person, rfl, rfl⟩ ?_
  simp only [List.forall_mem_cons, List.not_mem_nil, false_imp_iff, implies_true, and_true]
  refine ⟨.object ⟨named, rfl, rfl⟩ (not_excess_of_allOf _), .allOf ⟨_, rfl, rfl⟩ ?_, ?_⟩
  · simpa using .object ⟨_, rfl, rfl⟩ (not_excess_of_allOf _)
  · exact .oneOf ⟨_, rfl, rfl⟩ (by simp) accepted (.object ⟨contact, rfl, rfl⟩ complete)

theorem person_accepted_when_rejecting :
    personDirectory.switches.rejectUndeclared = false ∧
      personDirectory.document.Assembly person ∧
      (personDirectory.validate { root := "q" } (.object personMembers) person .unknown).IsDecided ∧
      (personDirectory.rejecting.validate { root := "q" } (.object personMembers) person
        .unknown).IsAccepted := by
  have accepted : (personDirectory.validate { root := "q" } (.object personMembers) person
      .unknown).IsAccepted :=
    (checkWithin_below_validate 3 2).isAccepted ⟨_, rfl⟩
  refine ⟨rfl, person_assembly, .inl accepted, ?_⟩
  exact (rejecting_accepts_iff rfl person_assembly (.inl accepted)).1.mpr ⟨accepted, person_owned⟩

def address : Schema :=
  .allOf [.oneOf [.object [("street", .string)] []], .object [("city", .string)] []]

def addressMembers : List (String × Value) :=
  [("street", .string "Main"), ("city", .string "Oslo")]

/-- Keys of a sibling turn an object down where a union stands between it and the intersection. -/
theorem address_refused_when_rejecting :
    ({} : Document).checkReferences = .ok () ∧ ({} : Document).Assembly address ∧
      (∀ key ∈ Entries.keys addressMembers, ∃ node rule, ({} : Document).Spans address node ∧
        ({} : Document).Shapes node (.object rule) ∧ key ∈ Entries.keys rule.properties ∧
        (({} : Validator).validate { root := "q" } (.object addressMembers) node
          .unknown).IsAccepted) ∧
      (({} : Validator).validate { root := "q" } (.object addressMembers) address
        .unknown).outcome = .ok (.object addressMembers) ∧
      (({} : Validator).rejecting.validate { root := "q" } (.object addressMembers) address
        .unknown).IsRefused := by
  have street : ({} : Document).Assembly (.object [("street", .string)] []) :=
    assembly_of_scalars (by simp [string_shapes])
  have city : ({} : Document).Assembly (.object [("city", .string)] []) :=
    assembly_of_scalars (by simp [string_shapes])
  have union : ({} : Document).Assembly (.oneOf [.object [("street", .string)] []]) :=
    Document.assembly_oneOf ⟨_, rfl, rfl⟩ (by simpa using street)
  refine ⟨Document.checkReferences_empty,
    Document.assembly_allOf ⟨address, rfl, rfl⟩ (by simpa using ⟨union, city⟩), ?_, ?_, ?_⟩
  · intro key isKey
    have isDeclared : key ∈ ["street", "city"] := isKey
    simp only [List.mem_cons, List.not_mem_nil, or_false] at isDeclared
    rcases isDeclared with rfl | rfl
    · refine ⟨.object [("street", .string)] [], _, ?_, ⟨_, rfl, rfl⟩, List.mem_cons_self, ?_⟩
      · exact .head (.intersected ⟨address, rfl, rfl⟩ List.mem_cons_self)
          (.single (.alternative ⟨_, rfl, rfl⟩ List.mem_cons_self))
      · exact (checkWithin_below_validate 1 2).isAccepted ⟨_, rfl⟩
    · refine ⟨.object [("city", .string)] [], _, ?_, ⟨_, rfl, rfl⟩, List.mem_cons_self, ?_⟩
      · exact .single (.intersected ⟨address, rfl, rfl⟩ (by simp))
      · exact (checkWithin_below_validate 1 2).isAccepted ⟨_, rfl⟩
  · exact (checkWithin_below_validate 3 2).outcome_eq_ok rfl
  · exact (checkWithin_below_validate 3 2).isRefused ⟨_, rfl⟩

end Validator

end ApiContract

import ApiContract.Proofs.Schema.Pattern
import ApiContract.Proofs.Validation.Acceptance
import ApiContract.Proofs.Validation.Recursion

/-!
What a handler may rely on.

`Conforms` says what a result has to be, in terms of the schema and of the value it stands for, and
not of how it was checked. What it takes for a text to match a pattern is left open there. Where no
intersection can be reached, every result of a check conforms; the texts match the patterns as a
whole unless a pattern escapes its anchors.
-/

namespace ApiContract

/-- The texts, instants and binary contents that a text rule admits, given what it takes for a text
to match a pattern. -/
inductive StringRule.Admits (Matches : Pattern → String → Prop) (rule : StringRule) : Value → Prop
  | date {t} : rule.format = some "date" ∨ rule.format = some "date-time" →
      Admits Matches rule (.date t)
  | binary {bytes} : rule.format = some "binary" ∨ rule.format = some "byte" →
      Admits Matches rule (.binary bytes)
  | text {s} : rule.format ≠ some "date" → rule.format ≠ some "date-time" →
      (∀ n, rule.minLength = some n → n ≤ s.length) →
      (∀ n, rule.maxLength = some n → s.length ≤ n) →
      (∀ texts, rule.allowed = some texts → s ∈ texts) →
      (∀ p, rule.pattern = some p → Matches p s) → Admits Matches rule (.string s)

/-- The numbers that a number rule admits, by their exact values. A bound that is not a number
bounds nothing. -/
structure NumberRule.Admits (rule : NumberRule) (x : Binary64) : Prop where
  finite : x.isFinite = true
  whole : rule.integer = true → (Binary64.unitsPerOne : Int) ∣ x.units
  atLeast : ∀ m, rule.minimum = some m → m.isNaN = false → m.units ≤ x.units
  atMost : ∀ m, rule.maximum = some m → m.isNaN = false → x.units ≤ m.units
  listed : ∀ xs, rule.allowed = some xs → ∃ y ∈ xs, y.isNaN = false ∧ y.units = x.units

/-- The counts of elements that an array rule admits. -/
def ArrayRule.AdmitsCount {σ : Type} (rule : ArrayRule σ) (count : Nat) : Prop :=
  (∀ n, rule.minItems = some n → n ≤ count) ∧ ∀ n, rule.maxItems = some n → count ≤ n

theorem Binary64.not_isNaN_of_isFinite {x : Binary64} (finite : x.isFinite = true) :
    x.isNaN = false := by
  simp only [isFinite, isNaN, decide_eq_true_eq, decide_eq_false_iff_not] at finite ⊢
  omega

theorem Binary64.unitsPerOne_dvd_units {x : Binary64} (whole : x.isWhole = true) :
    (unitsPerOne : Int) ∣ x.units := by
  have divides : unitsPerOne ∣ unitsOf x.magnitude := by
    have remainder := (Bool.and_eq_true_iff.mp whole).2
    exact Nat.dvd_of_mod_eq_zero (by simpa using remainder)
  have divides : (unitsPerOne : Int) ∣ (unitsOf x.magnitude : Int) :=
    Int.natCast_dvd_natCast.mpr divides
  unfold units
  split
  · exact Int.dvd_neg.mpr divides
  · exact divides

theorem StringRule.admits_of_coerce_eq_ok {Matches : Pattern → String → Prop} {rule : StringRule}
    {v w : Value} (matching : ∀ p s, rule.pattern = some p → p.isMatch s = true → Matches p s)
    (accepted : rule.coerce v = .ok w) : rule.Admits Matches w := by
  cases coerce_eq_ok_iff.mp accepted with
  | date isDate => exact .date (by simpa [StringRule.isDate] using isDate)
  | binary isBinary => exact .binary (by simpa [StringRule.isBinary] using isBinary)
  | instant _ isDate _ => exact .date (by simpa [StringRule.isDate] using isDate)
  | text violation notDate =>
    obtain ⟨short, long, listed, matched⟩ := violation?_eq_none_iff.mp violation
    obtain ⟨notDay, notTime⟩ : rule.format ≠ some "date" ∧ rule.format ≠ some "date-time" := by
      simpa [StringRule.isDate] using notDate
    exact .text notDay notTime short long listed fun p isPattern =>
      matching p _ isPattern (matched p isPattern)

theorem NumberRule.admits_of_coerce_eq_ok {rule : NumberRule} {readsText : Bool} {v : Value}
    {x : Binary64} (accepted : rule.coerce readsText v = .ok x) : rule.Admits x := by
  obtain ⟨-, finite, whole, violation⟩ := coerce_eq_ok_iff.mp accepted
  obtain ⟨least, most, listed⟩ := violation?_eq_none_iff.mp violation
  have isNumber := Binary64.not_isNaN_of_isFinite finite
  refine ⟨finite, fun integer => Binary64.unitsPerOne_dvd_units (whole integer), ?_, ?_, ?_⟩
  · intro m isMinimum bounds
    simpa [Binary64.less, isNumber, bounds] using least m isMinimum
  · intro m isMaximum bounds
    simpa [Binary64.less, isNumber, bounds] using most m isMaximum
  · intro xs isList
    obtain ⟨y, inList, same⟩ := listed xs isList
    obtain ⟨notNaN, units⟩ : y.isNaN = false ∧ x.units = y.units := by
      simpa [Binary64.equals, isNumber] using same
    exact ⟨y, inList, notNaN, units.symm⟩

theorem ArrayRule.admitsCount_of_countViolation?_eq_none {rule : ArrayRule Schema} {count : Nat}
    (fits : Validator.countViolation? rule count = none) : rule.AdmitsCount count := by
  simpa [Validator.countViolation?, Reason.unlessHolds_eq_none_iff, AdmitsCount] using fits

namespace Validator

mutual

/-- What a value may become under a schema. Null is accepted as itself or as a default; any other
value follows the shape at the end of the references. -/
inductive Conforms (d : Validator) (Matches : Pattern → String → Prop) :
    Schema → Value → Value → Prop
  | null {schema target} : d.document.resolve schema = .ok target →
      schema.nullable = true ∨ target.nullable = true →
      Conforms d Matches schema .null ((schema.default? <|> target.default?).getD .null)
  | shaped {schema target v w} : d.document.resolve schema = .ok target → v.isNull = false →
      Fits d Matches target.shape v w → Conforms d Matches schema v w

/-- What a value other than null may become under a shape. No intersection is considered. -/
inductive Fits (d : Validator) (Matches : Pattern → String → Prop) :
    Shape Schema → Value → Value → Prop
  | string {rule v w} : rule.Admits Matches w → Fits d Matches (.string rule) v w
  | number {rule v x} : rule.Admits x → Fits d Matches (.number rule) v (.number x)
  | boolean {v b} : Fits d Matches .boolean v (.bool b)
  | array {rule items results} : rule.AdmitsCount results.length →
      items.length = results.length →
      (∀ (i : Nat) item result, items[i]? = some item → results[i]? = some result →
        Conforms d Matches rule.items item result) →
      Fits d Matches (.array rule) (.array items) (.array results)
  | object {rule members results} :
      (∀ e ∈ results, Belongs d Matches rule members e.1 e.2) →
      (∀ p, Offers d.document rule.properties p → p.name ∈ rule.required →
        p.target.isAny = false → p.name ∈ Entries.keys results) →
      Fits d Matches (.object rule) (.object members) (.object results)
  | oneOf {branches branch v w} : branch ∈ branches → Conforms d Matches branch v w →
      Fits d Matches (.oneOf branches) v w
  | any {v} : Fits d Matches .any v v
  | unknown {raw v} : Fits d Matches (.unknown raw) v v

/-- What may stand in an object: a property that was given or is filled with its default, and a key
that is not a property where others are copied or have a schema. -/
inductive Belongs (d : Validator) (Matches : Pattern → String → Prop) :
    ObjectRule Schema → List (String × Value) → String → Value → Prop
  | given {rule members p v w} : Offers d.document rule.properties p →
      Entries.get? members p.name = some v → Conforms d Matches p.node v w →
      Belongs d Matches rule members p.name w
  | default {rule members p w} : Offers d.document rule.properties p →
      Entries.get? members p.name = none → p.default? = some w →
      Belongs d Matches rule members p.name w
  | copied {rule members key w} : (∀ p, Offers d.document rule.properties p → p.name ≠ key) →
      rule.additional = .allowed true → d.switches.rejectUndeclared = true → (key, w) ∈ members →
      Belongs d Matches rule members key w
  | additional {rule members key node v w} :
      (∀ p, Offers d.document rule.properties p → p.name ≠ key) →
      rule.additional = .schema node → (key, v) ∈ members → Conforms d Matches node v w →
      Belongs d Matches rule members key w

end

variable {d : Validator} {Matches : Pattern → String → Prop} {check inside across : Check}
  {path : Path} {v w : Value} {schema : Schema} {parent : Parent}

/-- No intersection can be reached from a schema, and the texts that pass a pattern which can be
reached match it. -/
structure Regular (d : Validator) (Matches : Pattern → String → Prop) (schema : Schema) : Prop where
  noIntersection : ∀ node, d.document.Reaches schema node → ∀ branches, node.shape ≠ .allOf branches
  matching : ∀ node, d.document.Reaches schema node → ∀ rule p s, node.shape = .string rule →
    rule.pattern = some p → p.isMatch s = true → Matches p s

theorem Regular.of_leads {node : Schema} (regular : d.Regular Matches schema)
    (leads : d.document.Leads schema node) : d.Regular Matches node where
  noIntersection _ reaches :=
    regular.noIntersection _ ((Document.reaches_of_leads leads).trans reaches)
  matching _ reaches := regular.matching _ ((Document.reaches_of_leads leads).trans reaches)

theorem fits_of_checkArray_eq_ok {rule : ArrayRule Schema}
    (items : ∀ path v w, (check path v rule.items .array).outcome = .ok w →
      d.Conforms Matches rule.items v w)
    (accepted : (checkArray check path v rule).outcome = .ok w) :
    d.Fits Matches (.array rule) v w := by
  obtain ⟨given, results, rfl, fits, related, rfl⟩ := checkArray_eq_ok.mp accepted
  have length : given.length = results.length := by simpa using related.length_eq
  have count : rule.AdmitsCount results.length :=
    length ▸ ArrayRule.admitsCount_of_countViolation?_eq_none fits
  refine .array count length fun i item result atItem atResult => ?_
  exact items _ item result (forall₂_zipIdx_getElem? related atItem atResult)

theorem fits_of_checkObject_eq_ok {rule : ObjectRule Schema}
    (inner : ∀ path v node w, node ∈ (Shape.object rule).nodes →
      (check path v node .object).outcome = .ok w → d.Conforms Matches node v w)
    (accepted : (d.checkObject check path v rule parent).outcome = .ok w) :
    d.Fits Matches (.object rule) v w := by
  obtain ⟨members, ps, results, rfl, rfl, resolved, entries, required⟩ :=
    entries_of_checkObject_eq_ok accepted
  have offered {p : Declared} : p ∈ ps ↔ Offers d.document rule.properties p :=
    mem_declared_iff resolved
  refine .object ?_ fun p offers => required p (offered.mpr offers)
  rintro ⟨key, w⟩ isEntry
  have origin : Entry d check path rule members ps key w := entries _ isEntry
  cases origin with
  | @given p _ _ isDeclared found passed =>
    have offers := offered.mp isDeclared
    have inRule := ObjectRule.mem_nodes_of_property offers.isEntry
    exact .given offers found (inner _ _ _ _ inRule passed)
  | default isDeclared absent filled => exact .default (offered.mp isDeclared) absent filled
  | copied other allowed rejects isMember =>
    exact .copied (fun p offers => other p (offered.mpr offers)) allowed rejects isMember
  | @checked _ node _ _ other additional isMember passed =>
    have inRule := ObjectRule.mem_nodes_of_additional additional
    exact .additional (fun p offers => other p (offered.mpr offers)) additional isMember
      (inner _ _ _ _ inRule passed)

/-- What a check makes of a value under a regular schema conforms. -/
def Ensures (d : Validator) (Matches : Pattern → String → Prop) (check : Check) : Prop :=
  ∀ path v schema parent w, d.Regular Matches schema →
    (check path v schema parent).outcome = .ok w → d.Conforms Matches schema v w

theorem ensures_giveUp (d : Validator) (Matches : Pattern → String → Prop) :
    d.Ensures Matches giveUp := by
  intro path v schema parent w _ accepted
  simp [giveUp] at accepted

theorem ensures_step (insideEnsures : d.Ensures Matches inside)
    (acrossEnsures : d.Ensures Matches across) : d.Ensures Matches (d.step inside across) := by
  intro path v schema parent w regular stepped
  obtain ⟨target, resolved, accepted⟩ := step_eq_ok.mp stepped
  have reached : d.document.Reaches schema target := Document.reaches_of_resolve_eq_ok resolved
  have inTarget {node : Schema} (isChild : node ∈ target.shape.nodes) : d.Regular Matches node :=
    regular.of_leads ⟨target, resolved, isChild⟩
  rcases accepted with ⟨isNull, accepted⟩ | ⟨present, accepts⟩
  · obtain ⟨nullable, rfl⟩ := checkNull_eq_ok.mp accepted
    obtain rfl := Value.eq_null_of_isNull isNull
    exact .null resolved (Bool.or_eq_true_iff.mp nullable)
  refine .shaped resolved present ?_
  cases accepts with
  | string shape coerced =>
    rw [shape]
    refine .string (StringRule.admits_of_coerce_eq_ok (fun p s => ?_) coerced)
    exact regular.matching target reached _ p s shape
  | number shape coerced =>
    rw [shape]
    exact .number (NumberRule.admits_of_coerce_eq_ok coerced)
  | boolean shape _ =>
    rw [shape]
    exact .boolean
  | array shape accepted =>
    rw [shape] at inTarget ⊢
    refine fits_of_checkArray_eq_ok (fun path v w passed => ?_) accepted
    exact insideEnsures path v _ _ w (inTarget (by simp [Shape.nodes])) passed
  | object shape accepted =>
    rw [shape] at inTarget ⊢
    refine fits_of_checkObject_eq_ok (fun path v node w inRule passed => ?_) accepted
    exact insideEnsures path v node _ w (inTarget inRule) passed
  | allOf shape _ => exact absurd shape (regular.noIntersection target reached _)
  | oneOf shape accepted =>
    rw [shape] at inTarget ⊢
    obtain ⟨branch, isBranch, passed⟩ := exists_branch_of_checkOneOf_eq_ok accepted
    exact .oneOf isBranch (acrossEnsures path v branch _ w (inTarget isBranch) passed)
  | any shape =>
    rw [shape]
    exact .any
  | unknown shape =>
    rw [shape]
    exact .unknown

theorem conforms_of_regular (regular : d.Regular Matches schema)
    (accepted : (d.validate path v schema parent).outcome = .ok w) :
    d.Conforms Matches schema v w :=
  checkWithin_induction d (ensures_giveUp d Matches) (fun _ _ => ensures_step) (d.nodeCount schema)
    (v.depth + 1) path v schema parent w regular accepted

theorem conforms_text_iff {rule : StringRule} {s : String}
    (shapes : d.document.Shapes schema (.string rule)) (present : v.isNull = false) :
    d.Conforms Matches schema v (.string s) ↔ rule.Admits Matches (.string s) := by
  obtain ⟨target, resolved, shape⟩ := shapes
  constructor
  · intro conforms
    generalize isText : Value.string s = w at conforms ⊢
    cases conforms with
    | null => cases present
    | shaped resolved' _ fits =>
      obtain rfl := Except.ok.inj (resolved.symm.trans resolved')
      rw [shape] at fits
      cases fits with
      | string admits => exact admits
  · intro admits
    exact .shaped resolved present (shape ▸ .string admits)

/-- Where no intersection can be reached from a schema, every accepted value becomes one that
conforms to the schema. A text in it matches its pattern as a whole, unless the pattern escapes its
anchors: such a pattern passes the texts in which the anchored source matches anywhere, and none of
them is matched by the source as a whole. -/
theorem validate_conforms {d : Validator} {path : Path} {v w : Value} {schema : Schema}
    {parent : Parent}
    (noIntersection : ∀ node, d.document.Reaches schema node →
      ∀ branches, node.shape ≠ .allOf branches)
    (accepted : (d.validate path v schema parent).outcome = .ok w) :
    d.Conforms Pattern.Passes schema v w ∧
      ((∀ node, d.document.Reaches schema node → ∀ rule p, node.shape = .string rule →
        rule.pattern = some p → ¬p.Escapes) → d.Conforms Pattern.MatchesWhole schema v w) ∧
      ∀ rule p s, d.document.Shapes schema (.string rule) → rule.pattern = some p →
        v.isNull = false → w = .string s →
        (d.Conforms Pattern.MatchesWhole schema v w ↔ ¬p.Escapes) := by
  have conforms : d.Conforms Pattern.Passes schema v w := by
    refine conforms_of_regular ⟨noIntersection, ?_⟩ accepted
    intro node _ rule p s _ _ passes
    exact (p.isMatch_eq_true_iff s).mp passes
  refine ⟨conforms, fun anchored => ?_, ?_⟩
  · refine conforms_of_regular ⟨noIntersection, ?_⟩ accepted
    intro node reaches rule p s shape isPattern passes
    have escapesNot := anchored node reaches rule p shape isPattern
    exact ((p.isMatch_eq_true_iff s).mp passes).resolve_right fun escaped => escapesNot escaped.1
  · rintro rule p s shapes isPattern present rfl
    rw [conforms_text_iff shapes present] at conforms ⊢
    cases conforms with
    | text notDate notTime short long listed passes =>
      constructor
      · rintro (_ | _ | ⟨-, -, -, -, -, whole⟩) escapes
        exact Pattern.not_matchesWhole_of_escapes escapes s (whole p isPattern)
      · intro anchored
        refine .text notDate notTime short long listed fun q isPattern' => ?_
        obtain rfl : p = q := Option.some.inj (isPattern.symm.trans isPattern')
        exact (passes p isPattern).resolve_right fun escaped => anchored escaped.1

def sizeName : Schema := .plain (.string { pattern := Pattern.ofSource? "small|large" })

def orderDocument : Document := { schemas := [("Size", .oneOf [sizeName, .boolean])] }

def sizeList : Schema :=
  .plain (.array { items := .reference "Size", minItems := some 1, maxItems := some 2 })

def orderNote : Schema := .asNullable (.withDefault .string (.string "none"))

/-- One or two sizes, by name or as a flag, a note that null sets to its default, and flags. -/
def orderSchema : Schema :=
  .plain (.object {
    properties := [("sizes", sizeList), ("note", orderNote)]
    required := ["sizes"]
    additional := .schema .boolean })

def givenOrder : Value :=
  .object [("gift", .string "1"), ("note", .null),
    ("sizes", .array [.string "small", .string "true"])]

def acceptedOrder : Value :=
  .object [("sizes", .array [.string "small", .bool true]), ("note", .string "none"),
    ("gift", .bool true)]

theorem mem_of_orderDocument_reaches {node : Schema}
    (reaches : orderDocument.Reaches orderSchema node) :
    node ∈ [orderSchema, sizeList, orderNote, .reference "Size", .oneOf [sizeName, .boolean],
      sizeName, .boolean] := by
  refine Document.mem_of_reaches ?_ ?_ List.mem_cons_self reaches
  · simp [orderDocument, Entries.values]
  · simp [Schema.children, orderSchema, sizeList, orderNote, sizeName, Schema.string,
      Schema.oneOf, Schema.reference, Schema.boolean, Schema.plain, Schema.asNullable,
      Schema.withDefault, Shape.nodes, Additional.nodes, Entries.values]

theorem orderSchema_noIntersection (node : Schema)
    (reaches : orderDocument.Reaches orderSchema node) (branches : List Schema) :
    node.shape ≠ .allOf branches := by
  have reached := mem_of_orderDocument_reaches reaches
  simp only [List.mem_cons, List.not_mem_nil, or_false] at reached
  rcases reached with rfl | rfl | rfl | rfl | rfl | rfl | rfl <;>
    simp [orderSchema, sizeList, orderNote, sizeName, Schema.string, Schema.oneOf,
      Schema.reference, Schema.boolean, Schema.plain, Schema.asNullable, Schema.withDefault]

theorem orderSchema_anchored (node : Schema) (reaches : orderDocument.Reaches orderSchema node)
    (rule : StringRule) (p : Pattern) (shape : node.shape = .string rule)
    (isPattern : rule.pattern = some p) : ¬p.Escapes := by
  have compiles : Pattern.ofSource? "small|large" = some p := by
    have reached := mem_of_orderDocument_reaches reaches
    simp only [List.mem_cons, List.not_mem_nil, or_false] at reached
    rcases reached with rfl | rfl | rfl | rfl | rfl | rfl | rfl <;> cases shape
    · cases isPattern
    · exact isPattern
  have isRead : Regex.read? p.source ≠ none := by
    rw [Pattern.source_of_ofSource? compiles]
    decide +kernel
  exact mt p.read?_eq_none_iff.mpr isRead

theorem acceptedOrder_conforms :
    (∀ node, orderDocument.Reaches orderSchema node → ∀ branches, node.shape ≠ .allOf branches) ∧
      (validate { document := orderDocument } { root := "body" } givenOrder orderSchema
        .unknown).outcome = .ok acceptedOrder ∧
      Conforms { document := orderDocument } Pattern.MatchesWhole orderSchema givenOrder
        acceptedOrder := by
  have checked : (checkWithin { document := orderDocument } 3 3 { root := "body" } givenOrder
      orderSchema .unknown).outcome = .ok acceptedOrder := rfl
  have accepted := validate_outcome_of_checkWithin checked (by simp)
  obtain ⟨-, conforms, -⟩ := validate_conforms orderSchema_noIntersection accepted
  exact ⟨orderSchema_noIntersection, accepted, conforms orderSchema_anchored⟩

def looseRule : StringRule := { pattern := Pattern.ofSource? "a)|(b" }

/-- The letter a or the letter b, with parentheses that do not match. -/
def looseSchema : Schema := .plain (.string looseRule)

/-- A text is let through by a pattern whose source is no expression, let alone one that matches
it. -/
theorem looseText_not_conforms :
    ({} : Document).checkReferences = .ok () ∧
      (∀ node, ({} : Document).Reaches looseSchema node → ∀ branches, node.shape ≠ .allOf branches) ∧
      (validate {} { root := "q" } (.string "axyz") looseSchema .unknown).outcome =
        .ok (.string "axyz") ∧
      Regex.ofPattern? "a)|(b" = none ∧
      ¬Conforms {} Pattern.MatchesWhole looseSchema (.string "axyz") (.string "axyz") := by
  have checked : (checkWithin {} 1 1 { root := "q" } (.string "axyz") looseSchema
      .unknown).outcome = .ok (.string "axyz") := rfl
  have invalid : Regex.ofPattern? "a)|(b" = none := by decide +kernel
  refine ⟨Document.checkReferences_empty, ?_, validate_outcome_of_checkWithin checked (by simp),
    invalid, ?_⟩
  · intro node reaches branches
    have reached : node ∈ [looseSchema] :=
      Document.mem_of_reaches (by simp [Entries.values])
        (by simp [looseSchema, Schema.children, Schema.plain, Shape.nodes]) List.mem_cons_self
        reaches
    obtain rfl := List.mem_singleton.mp reached
    simp [looseSchema, Schema.plain]
  · have shapes : ({} : Document).Shapes looseSchema (.string looseRule) := ⟨looseSchema, rfl, rfl⟩
    rw [conforms_text_iff shapes rfl]
    obtain ⟨p, compiles⟩ : ∃ p, Pattern.ofSource? "a)|(b" = some p :=
      Option.isSome_iff_exists.mp (by decide +kernel)
    rintro (_ | _ | ⟨-, -, -, -, -, whole⟩)
    obtain ⟨r, valid, -⟩ := whole p compiles
    rw [Pattern.source_of_ofSource? compiles, invalid] at valid
    cases valid

end Validator

end ApiContract

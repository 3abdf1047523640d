import ApiContract.Proofs.Validation.Acceptance
import ApiContract.Proofs.Validation.Recursion

/-!
Checking an accepted value again.

Without defaults, unions and proper intersections a check accepts its own results as they are. The
keys of an accepted object are those that the schema declares, in its order, followed by the
undeclared ones that stayed; a second check finds the same two groups.
-/

namespace ApiContract

/-- No default, no union, and no intersection of several branches. -/
structure Schema.Repeatable (s : Schema) : Prop where
  noDefault : s.default? = none
  noUnion : ∀ branches, s.shape ≠ .oneOf branches
  fewBranches : ∀ branches, s.shape = .allOf branches → branches.length ≤ 1

theorem StringRule.coerce_coerce {rule : StringRule} {v w : Value}
    (accepted : rule.coerce v = .ok w) : rule.coerce w = .ok w ∧ w.isNull = false := by
  rw [coerce_eq_ok_iff] at accepted ⊢
  cases accepted with
  | date isDate => exact ⟨.date isDate, rfl⟩
  | binary isBinary => exact ⟨.binary isBinary, rfl⟩
  | instant _ isDate _ => exact ⟨.date isDate, rfl⟩
  | text violation isDate => exact ⟨.text violation isDate, rfl⟩

theorem NumberRule.coerce_number {rule : NumberRule} {readsText : Bool} {v : Value} {x : Binary64}
    (accepted : rule.coerce readsText v = .ok x) : rule.coerce readsText (.number x) = .ok x := by
  obtain ⟨-, conditions⟩ := coerce_eq_ok_iff.mp accepted
  exact coerce_eq_ok_iff.mpr ⟨rfl, conditions⟩

namespace Validator

variable {d : Validator} {check check' inside inside' across across' : Check} {path : Path}
  {v w : Value} {parent : Parent} {ps : List Declared} {results : List (Option (String × Value))}
  {extra : List (String × Value)}

theorem forall₂_results {α β : Type} {R : α → β → Prop} {S : β → β → Prop} {inputs : List α}
    {outputs : List β} (keeps : ∀ input output, R input output → S output output)
    (related : List.Forall₂ R inputs outputs) : List.Forall₂ S outputs outputs := by
  induction related with
  | nil => exact .nil
  | cons first _ ih => exact .cons (keeps _ _ first) ih

theorem forall₂_zipIdx_results {items results : List Value} {R S : Value × Nat → Value → Prop}
    {start : Nat} (keeps : ∀ item i result, R (item, i) result → S (result, i) result)
    (related : List.Forall₂ R (items.zipIdx start) results) :
    List.Forall₂ S (results.zipIdx start) results := by
  induction items generalizing start results with
  | nil =>
    obtain rfl := List.forall₂_nil_left_iff.mp related
    exact .nil
  | cons item items ih =>
    obtain ⟨result, others, first, rest, rfl⟩ := List.forall₂_cons_left_iff.mp related
    exact .cons (keeps item start result first) (ih rest)

theorem checkArray_again {rule : ArrayRule Schema}
    (keeps : ∀ path v w, (check path v rule.items .array).outcome = .ok w →
      (check' path w rule.items .array).outcome = .ok w)
    (accepted : (checkArray check path v rule).outcome = .ok w) :
    w.isNull = false ∧ (checkArray check' path w rule).outcome = .ok w := by
  obtain ⟨items, results, rfl, fits, related, rfl⟩ := checkArray_eq_ok.mp accepted
  have length : items.length = results.length := by simpa using related.length_eq
  refine ⟨rfl, checkArray_eq_ok.mpr ⟨results, results, rfl, length ▸ fits, ?_, rfl⟩⟩
  exact forall₂_zipIdx_results (fun item i result => keeps _ item result) related

theorem get?_results {R : Declared → Option (String × Value) → Prop} (named : Named ps results)
    (related : List.Forall₂ R ps results) (distinct : (ps.map Declared.name).Nodup)
    (apart : ∀ e ∈ extra, ∀ p ∈ ps, p.name ≠ e.1) :
    List.Forall₂ (fun p result => R p result ∧
      Entries.get? (results.filterMap id ++ extra) p.name = result.map Prod.snd) ps results := by
  induction related with
  | nil => exact .nil
  | @cons p result ps results first _ ih =>
    obtain ⟨name, othersNamed⟩ := List.forall₂_cons.mp named
    obtain ⟨fresh, distinct⟩ := List.nodup_cons.mp distinct
    have others := ih othersNamed distinct fun e isExtra q later =>
      apart e isExtra q (List.mem_cons_of_mem p later)
    have different (q : Declared) (later : q ∈ ps) : p.name ≠ q.name :=
      fun same => fresh (List.mem_map.mpr ⟨q, later, same.symm⟩)
    cases result with
    | none =>
      refine .cons ⟨first, ?_⟩ others
      refine Entries.get?_eq_none fun e membership same => ?_
      rcases List.mem_append.mp membership with isResult | isExtra
      · obtain ⟨q, later, name⟩ := Named.exists_of_mem othersNamed isResult
        exact different q later (same.symm.trans name)
      · exact apart e isExtra p List.mem_cons_self same.symm
    | some e =>
      have key : e.1 = p.name := name e rfl
      refine .cons ⟨first, by simp [Entries.get?, key]⟩ ?_
      refine ((List.forall₂_and_left ps results).mpr ⟨different, others⟩).imp ?_
      rintro q result ⟨other, related, found⟩
      exact ⟨related, by simpa [Entries.get?, key, other] using found⟩

theorem filter_results (named : Named ps results)
    (apart : ∀ e ∈ extra, ∀ p ∈ ps, p.name ≠ e.1) :
    (results.filterMap id ++ extra).filter (fun e => ps.all fun p => p.name ≠ e.1) = extra := by
  have declared : (results.filterMap id).filter (fun e => ps.all fun p => p.name ≠ e.1) = [] := by
    refine List.filter_eq_nil_iff.mpr fun e membership passes => ?_
    obtain ⟨p, isDeclared, name⟩ := named.exists_of_mem membership
    have other := List.all_eq_true.mp passes p isDeclared
    simp [name] at other
  have undeclared : extra.filter (fun e => ps.all fun p => p.name ≠ e.1) = extra := by
    refine List.filter_eq_self.mpr fun e isExtra => List.all_eq_true.mpr fun p isDeclared => ?_
    simpa using apart e isExtra p isDeclared
  rw [List.filter_append, declared, undeclared, List.nil_append]

theorem checkUndeclared_again {rule : ObjectRule Schema} {undeclared : List (String × Value)}
    (keeps : ∀ path v node w, node ∈ rule.additional.nodes →
      (check path v node .object).outcome = .ok w → (check' path w node .object).outcome = .ok w)
    (accepted : (d.checkUndeclared check path v parent rule undeclared).outcome = .ok extra) :
    (∀ e ∈ extra, e.1 ∈ undeclared.map Prod.fst) ∧
      (d.checkUndeclared check' path w parent rule extra).outcome = .ok extra := by
  have nothing : (d.checkUndeclared check' path w parent rule []).outcome = .ok [] := by
    simp [checkUndeclared, Additional.fate]
  cases fate : rule.additional.fate d.switches parent (undeclared.map Prod.fst) with
  | reject =>
    simp only [checkUndeclared, fate] at accepted
    exact absurd accepted refuse_ne_ok
  | warn =>
    obtain rfl : [] = extra := by simpa [checkUndeclared, fate] using accepted
    exact ⟨by simp, nothing⟩
  | drop =>
    obtain rfl : [] = extra := by simpa [checkUndeclared, fate] using accepted
    exact ⟨by simp, nothing⟩
  | copy =>
    obtain rfl : undeclared = extra := by simpa [checkUndeclared, fate] using accepted
    refine ⟨fun e membership => List.mem_map.mpr ⟨e, membership, rfl⟩, ?_⟩
    simp [checkUndeclared, fate]
  | check node =>
    have isNode := Additional.mem_nodes_of_fate_eq_check fate
    have checked := (checkUndeclared_eq_ok_of_check fate).mp accepted
    have keys : extra.map Prod.fst = undeclared.map Prod.fst :=
      keys_of_forall₂ (checked.imp fun _ _ => And.left)
    refine ⟨fun e membership => keys ▸ List.mem_map.mpr ⟨e, membership, rfl⟩, ?_⟩
    rw [← keys] at fate
    refine (checkUndeclared_eq_ok_of_check fate).mpr (forall₂_results ?_ checked)
    rintro ⟨key, v⟩ ⟨_, w⟩ ⟨rfl, accepted⟩
    exact ⟨rfl, keeps _ v node w isNode accepted⟩

/-- A property is settled by what its object holds for it. -/
theorem checkProperty_again {required : List String} {members again : Entries Value}
    {p : Declared} {result : Option (String × Value)} (noDefault : p.default? = none)
    (keeps : ∀ path v w, (check path v p.node .object).outcome = .ok w →
      (check' path w p.node .object).outcome = .ok w)
    (accepted : (checkProperty check path required members p).outcome = .ok result)
    (found : again.get? p.name = result.map Prod.snd) :
    (checkProperty check' path required again p).outcome = .ok result := by
  cases given : members.get? p.name with
  | some v =>
    obtain ⟨w, passed, rfl⟩ := (checkProperty_eq_ok_of_some given).mp accepted
    exact (checkProperty_eq_ok_of_some found).mpr ⟨w, keeps _ v w passed, rfl⟩
  | none =>
    have settled := (checkProperty_eq_ok_of_none given).mp accepted
    obtain rfl : result = none := by
      rcases settled with ⟨-, -, none⟩ | ⟨-, default⟩
      · exact none
      · simpa [noDefault] using default
    exact (checkProperty_eq_ok_of_none found).mpr settled

theorem checkObject_again {rule : ObjectRule Schema} (distinct : Entries.Distinct rule.properties)
    (noDefault : ∀ node ∈ (Shape.object rule).nodes, ∀ target,
      d.document.resolve node = .ok target → node.default? = none ∧ target.default? = none)
    (keeps : ∀ path v node w, node ∈ (Shape.object rule).nodes →
      (check path v node .object).outcome = .ok w → (check' path w node .object).outcome = .ok w)
    (accepted : (d.checkObject check path v rule parent).outcome = .ok w) :
    w.isNull = false ∧ (d.checkObject check' path w rule parent).outcome = .ok w := by
  obtain ⟨members, ps, results, extra, rfl, resolved, properties, undeclared, rfl⟩ :=
    checkObject_eq_ok.mp accepted
  have named : Named ps results := properties.imp fun _ _ => name_of_checkProperty_eq_ok
  have inAdditional (path : Path) (v : Value) (node : Schema) (w : Value)
      (inRule : node ∈ rule.additional.nodes) :
      (check path v node .object).outcome = .ok w → (check' path w node .object).outcome = .ok w :=
    keeps path v node w (List.mem_append_right _ inRule)
  obtain ⟨extraKeys, undeclaredAgain⟩ := checkUndeclared_again inAdditional undeclared
    (w := .object (results.filterMap id ++ extra))
  have apart : ∀ e ∈ extra, ∀ p ∈ ps, p.name ≠ e.1 := by
    intro e isExtra p isDeclared
    obtain ⟨member, passes, same⟩ := List.mem_map.mp (extraKeys e isExtra)
    have other := List.all_eq_true.mp (List.mem_filter.mp passes).2 p isDeclared
    rw [← same]
    simpa using other
  have found := get?_results named properties (nodup_names_of_declared distinct resolved) apart
  refine ⟨rfl, checkObject_eq_ok.mpr ⟨_, ps, results, extra, rfl, resolved, ?_, ?_, rfl⟩⟩
  · refine ((List.forall₂_and_left ps results).mpr ⟨fun p isDeclared => isDeclared, found⟩).imp ?_
    rintro p result ⟨isDeclared, passed, found⟩
    obtain ⟨inProperties, target⟩ := mem_properties_of_mem_declared resolved isDeclared
    have inRule := ObjectRule.mem_nodes_of_property inProperties
    obtain ⟨nodeDefault, targetDefault⟩ := noDefault p.node inRule p.target target
    refine checkProperty_again ?_ (fun path v w => keeps path v p.node w inRule) passed found
    simp [Declared.default?, nodeDefault, targetDefault]
  · rw [filter_results named apart]
    exact undeclaredAgain

theorem checkAllOf_again {branches : List Schema} (present : v.isNull = false)
    (few : branches.length ≤ 1)
    (keeps : ∀ node ∈ branches, ∀ w, (check path v node .allOf).outcome = .ok w →
      w.isNull = false ∧ (check' path w node .allOf).outcome = .ok w)
    (accepted : (checkAllOf check path v branches).outcome = .ok w) :
    w.isNull = false ∧ (checkAllOf check' path w branches).outcome = .ok w := by
  obtain ⟨results, related, rfl⟩ := checkAllOf_eq_ok.mp accepted
  match branches, few, related with
  | [], _, .nil => exact ⟨present, checkAllOf_eq_ok.mpr ⟨[], .nil, rfl⟩⟩
  | [node], _, .cons (b := result) first .nil =>
    obtain ⟨present, again⟩ := keeps node List.mem_cons_self result first
    exact ⟨present, checkAllOf_eq_ok.mpr ⟨[result], .cons again .nil, rfl⟩⟩

theorem accepts_again {target : Schema} (present : v.isNull = false) (keyed : target.Keyed)
    (noDefault : ∀ node ∈ target.children, ∀ other,
      d.document.resolve node = .ok other → node.default? = none ∧ other.default? = none)
    (insideKeeps : ∀ path v node parent w, node ∈ target.children →
      (inside path v node parent).outcome = .ok w → (inside' path w node parent).outcome = .ok w)
    (allOf : ∀ branches, target.shape = .allOf branches →
      (checkAllOf across path v branches).outcome = .ok w →
        w.isNull = false ∧ (checkAllOf across' path w branches).outcome = .ok w)
    (oneOf : ∀ branches, target.shape = .oneOf branches →
      (checkOneOf across path v branches).outcome = .ok w →
        w.isNull = false ∧ (checkOneOf across' path w branches).outcome = .ok w)
    (accepts : Accepts d inside across path v target parent w) :
    w.isNull = false ∧ Accepts d inside' across' path w target parent w := by
  unfold Schema.children at noDefault insideKeeps
  cases accepts with
  | string shape coerced =>
    obtain ⟨again, present⟩ := StringRule.coerce_coerce coerced
    exact ⟨present, .string shape again⟩
  | number shape coerced => exact ⟨rfl, .number shape (NumberRule.coerce_number coerced)⟩
  | boolean shape _ => exact ⟨rfl, .boolean shape rfl⟩
  | array shape accepted =>
    rw [shape] at insideKeeps
    obtain ⟨present, again⟩ := checkArray_again
      (fun path v w => insideKeeps path v _ _ w (List.mem_singleton_self _)) accepted
    exact ⟨present, .array shape again⟩
  | object shape accepted =>
    rw [shape] at noDefault insideKeeps
    obtain ⟨present, again⟩ := checkObject_again (keyed _ shape) noDefault
      (fun path v node w inRule => insideKeeps path v node _ w inRule) accepted
    exact ⟨present, .object shape again⟩
  | allOf shape accepted =>
    obtain ⟨present, again⟩ := allOf _ shape accepted
    exact ⟨present, .allOf shape again⟩
  | oneOf shape accepted =>
    obtain ⟨present, again⟩ := oneOf _ shape accepted
    exact ⟨present, .oneOf shape again⟩
  | any shape => exact ⟨present, .any shape⟩
  | unknown shape => exact ⟨present, .unknown shape⟩

/-- Without defaults a step accepts its own result, if the checks inside the value and the branches
do. -/
theorem step_again {schema : Schema}
    (noDefault : ∀ node, d.document.Reaches schema node → node.default? = none)
    (keyed : ∀ node, d.document.Reaches schema node → node.Keyed)
    (insideKeeps : ∀ path v node parent w, d.document.Leads schema node →
      (inside path v node parent).outcome = .ok w → (inside' path w node parent).outcome = .ok w)
    (allOf : ∀ target branches, d.document.resolve schema = .ok target →
      target.shape = .allOf branches → v.isNull = false →
      (checkAllOf across path v branches).outcome = .ok w →
        w.isNull = false ∧ (checkAllOf across' path w branches).outcome = .ok w)
    (oneOf : ∀ target branches, d.document.resolve schema = .ok target →
      target.shape = .oneOf branches → v.isNull = false →
      (checkOneOf across path v branches).outcome = .ok w →
        w.isNull = false ∧ (checkOneOf across' path w branches).outcome = .ok w)
    (accepted : (d.step inside across path v schema parent).outcome = .ok w) :
    w.isNull = v.isNull ∧ (d.step inside' across' path w schema parent).outcome = .ok w := by
  obtain ⟨target, resolved, accepted⟩ := step_eq_ok.mp accepted
  have toTarget : d.document.Reaches schema target := Document.reaches_of_resolve_eq_ok resolved
  rcases accepted with ⟨isNull, accepted⟩ | ⟨present, accepts⟩
  · obtain ⟨nullable, rfl⟩ := checkNull_eq_ok.mp accepted
    have again : ((schema.default? <|> target.default?).getD .null).isNull = true := by
      simp [noDefault schema .refl, noDefault target toTarget, Value.isNull]
    exact ⟨again.trans isNull.symm, step_eq_ok.mpr ⟨target, resolved, .inl ⟨again, accepted⟩⟩⟩
  · have noDefaultInside (node : Schema) (isChild : node ∈ target.children) (other : Schema)
        (resolvedNode : d.document.resolve node = .ok other) :
        node.default? = none ∧ other.default? = none := by
      have toNode : d.document.Reaches schema node :=
        Document.reaches_of_leads ⟨target, resolved, isChild⟩
      exact ⟨noDefault node toNode,
        noDefault other (toNode.trans (Document.reaches_of_resolve_eq_ok resolvedNode))⟩
    have again := accepts_again present (keyed target toTarget) noDefaultInside
      (fun path v node parent w isChild =>
        insideKeeps path v node parent w ⟨target, resolved, isChild⟩)
      (fun branches shape => allOf target branches resolved shape present)
      (fun branches shape => oneOf target branches resolved shape present) accepts
    exact ⟨again.1.trans present.symm, step_eq_ok.mpr ⟨target, resolved, .inr again⟩⟩

/-- Every result of the check is null when the value is, and a fixed point of `validate`, where only
certain nodes can be reached. -/
def SettlesOn (d : Validator) (P : Schema → Prop) (check : Check) : Prop :=
  ∀ path v schema parent w, (∀ node, d.document.Reaches schema node → P node) →
    (check path v schema parent).outcome = .ok w →
    w.isNull = v.isNull ∧ (d.validate path w schema parent).outcome = .ok w

def Settles (d : Validator) (check : Check) : Prop :=
  d.SettlesOn (fun node => node.Repeatable ∧ node.Keyed) check

theorem settles_step (insideSettles : d.Settles inside) (acrossSettles : d.Settles across) :
    d.Settles (d.step inside across) := by
  intro path v schema parent w reachable accepted
  have inTarget {node : Schema} (leads : d.document.Leads schema node) (other : Schema)
      (reaches : d.document.Reaches node other) : other.Repeatable ∧ other.Keyed :=
    reachable other ((Document.reaches_of_leads leads).trans reaches)
  -- The second check is the one without bounds, so that it can be unfolded once at this level.
  rw [validate_outcome]
  refine step_again (fun node reaches => (reachable node reaches).1.noDefault)
    (fun node reaches => (reachable node reaches).2) ?_ ?_ ?_ accepted
  · intro path v node parent w leads passed
    exact (insideSettles path v node parent w (inTarget leads) passed).2
  · intro target branches resolved shape present accepted
    have repeatable := (reachable target (Document.reaches_of_resolve_eq_ok resolved)).1
    refine checkAllOf_again present (repeatable.fewBranches _ shape)
      (fun node isBranch w passed => ?_) accepted
    have leads := Document.leads_of_mem_nodes resolved shape isBranch
    obtain ⟨same, again⟩ := acrossSettles path v node _ w (inTarget leads) passed
    exact ⟨same.trans present, again⟩
  · intro target branches resolved shape
    have repeatable := (reachable target (Document.reaches_of_resolve_eq_ok resolved)).1
    exact absurd shape (repeatable.noUnion branches)

/-- Where no reachable node has a default, is a union or intersects several schemas, checking what a
check accepted gives the same value. The declared properties of an object are a map. -/
theorem validate_idempotent {d : Validator} {path : Path} {v w : Value} {schema : Schema}
    {parent : Parent}
    (repeatable : ∀ node, d.document.Reaches schema node → node.Repeatable)
    (keyed : ∀ node, d.document.Reaches schema node → node.Keyed)
    (accepted : (d.validate path v schema parent).outcome = .ok w) :
    (d.validate path w schema parent).outcome = .ok w := by
  have settles : d.Settles (d.checkWithin (d.nodeCount schema) (v.depth + 1)) :=
    checkWithin_induction d (fun _ _ _ _ _ _ accepted => by simp [giveUp] at accepted)
      (fun _ _ => settles_step) _ _
  exact (settles path v schema parent w
    (fun node reaches => ⟨repeatable node reaches, keyed node reaches⟩) accepted).2

def flagDocument : Document := { schemas := [("Flag", .boolean)] }

def flagList : Schema :=
  .object [("flags", .array (.reference "Flag")), ("first", .allOf [.reference "Flag"])] []

def givenFlags : Value :=
  .object [("other", .null), ("first", .string "1"),
    ("flags", .array [.string "true", .bool false])]

def acceptedFlags : Value :=
  .object [("flags", .array [.bool true, .bool false]), ("first", .bool true)]

theorem flagList_repeatable {node : Schema} (reaches : flagDocument.Reaches flagList node) :
    node.Repeatable ∧ node.Keyed := by
  have reached : node ∈ [flagList, .array (.reference "Flag"), .allOf [.reference "Flag"],
      .reference "Flag", .boolean] := by
    refine Document.mem_of_reaches ?_ ?_ List.mem_cons_self reaches
    · simp [flagDocument, Entries.values]
    · simp [Schema.children, flagList, Schema.object, Schema.array, Schema.allOf, Schema.reference,
        Schema.boolean, Schema.plain, Shape.nodes, Additional.nodes, Entries.values,
        Entries.ofList, Entries.extend, Entries.insert]
  simp only [List.mem_cons, List.not_mem_nil, or_false] at reached
  rcases reached with rfl | others
  · refine ⟨⟨rfl, ?_, ?_⟩, Schema.keyed_object _ _⟩ <;>
      simp [flagList, Schema.object, Schema.plain]
  · rcases others with rfl | rfl | rfl | rfl
    all_goals
      refine ⟨⟨rfl, ?_, ?_⟩, Schema.keyed_of_not_object ?_⟩ <;>
        simp [Schema.array, Schema.allOf, Schema.boolean, Schema.reference, Schema.plain]

theorem givenFlags_accepted :
    (validate { document := flagDocument } { root := "query" } givenFlags flagList
      .unknown).outcome = .ok acceptedFlags := by
  have checked : (checkWithin { document := flagDocument } 2 3 { root := "query" } givenFlags
      flagList .unknown).outcome = .ok acceptedFlags := rfl
  exact validate_outcome_of_checkWithin checked (by simp)

theorem acceptedFlags_accepted :
    (∀ node, flagDocument.Reaches flagList node → node.Repeatable) ∧
      (∀ node, flagDocument.Reaches flagList node → node.Keyed) ∧
      (validate { document := flagDocument } { root := "query" } givenFlags flagList
        .unknown).outcome = .ok acceptedFlags ∧
      (validate { document := flagDocument } { root := "query" } acceptedFlags flagList
        .unknown).outcome = .ok acceptedFlags := by
  have repeatable (node : Schema) (reaches : flagDocument.Reaches flagList node) :
      node.Repeatable :=
    (flagList_repeatable reaches).1
  have keyed (node : Schema) (reaches : flagDocument.Reaches flagList node) : node.Keyed :=
    (flagList_repeatable reaches).2
  exact ⟨repeatable, keyed, givenFlags_accepted,
    validate_idempotent repeatable keyed givenFlags_accepted⟩

end Validator

end ApiContract

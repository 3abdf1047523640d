import ApiContract.Proofs.Validation.Termination
import ApiContract.Proofs.Validation.Verdicts

/-!
Results that are accepted again.

A check need not accept its own results: a default is not checked, and an intersection may put
together what its branches do not accept. Where no default comes up, and intersections accept what
they make of a value, every result is accepted again, though perhaps as something else: a union may
choose another branch.
-/

namespace ApiContract

/-- The references of the schema resolve in a checked document, and no chain of references and
branches that is in its reach leads from a node back to itself. -/
structure Document.Grounded (document : Document) (schema : Schema) : Prop where
  checked : document.checkReferences = .ok ()
  closed : document.Closed schema
  unlooped : document.Unlooped schema

theorem Document.Grounded.of_reaches {document : Document} {schema node : Schema}
    (grounded : document.Grounded schema) (reaches : document.Reaches schema node) :
    document.Grounded node where
  checked := grounded.checked
  closed := grounded.closed.of_reaches grounded.checked reaches
  unlooped := grounded.unlooped.of_reaches reaches

namespace Validator

open Report

variable {d : Validator} {check : Check} {path : Path} {v w : Value} {schema s node : Schema}
  {parent : Parent} {ps : List Declared} {branches : List Schema} {rule : ObjectRule Schema}
  {members undeclared extra : List (String × Value)}

theorem isDecided_of_grounded (grounded : d.document.Grounded schema) (path : Path) (v : Value)
    (parent : Parent) : (d.validate path v schema parent).IsDecided :=
  (ends_of_unlooped grounded.unlooped path parent).isDecided
    (validate_ne_schema grounded.checked grounded.closed path v parent)

theorem isAccepted_checkArray_again {rule : ArrayRule Schema} {items : List Value}
    (again : ∀ (i : Nat) item, items[i]? = some item → ∀ w,
      (check (path.child (.index i)) item rule.items .array).outcome = .ok w →
        (check (path.child (.index i)) w rule.items .array).IsAccepted)
    (accepted : (checkArray check path (.array items) rule).outcome = .ok w) :
    w.isNull = false ∧ (checkArray check path w rule).IsAccepted := by
  obtain ⟨_, results, same, fits, related, rfl⟩ := checkArray_eq_ok.mp accepted
  obtain rfl := Value.array.inj same
  have length : items.length = results.length := by simpa using related.length_eq
  refine ⟨rfl, isAccepted_checkArray_iff.mpr ⟨length ▸ fits, fun i result atResult => ?_⟩⟩
  obtain ⟨item, atItem⟩ : ∃ item, items[i]? = some item := by
    have inBounds := (List.getElem?_eq_some_iff.mp atResult).1
    exact ⟨_, List.getElem?_eq_getElem (length ▸ inBounds)⟩
  have passed := forall₂_zipIdx_getElem? related atItem atResult
  rw [Nat.zero_add] at passed
  exact again i item atItem result passed

theorem isAccepted_checkUndeclared_again
    (again : ∀ e ∈ undeclared, ∀ node ∈ rule.additional.nodes, ∀ w,
      (check (path.child (.key e.1)) e.2 node .object).outcome = .ok w →
        (check (path.child (.key e.1)) w node .object).IsAccepted)
    (accepted : (d.checkUndeclared check path v parent rule undeclared).outcome = .ok extra) :
    (∀ e ∈ extra, e.1 ∈ undeclared.map Prod.fst) ∧
      (d.checkUndeclared check path w parent rule extra).IsAccepted := by
  have nothing : (d.checkUndeclared check path w parent rule []).IsAccepted :=
    ⟨[], by simp [checkUndeclared, Additional.fate]⟩
  cases fate : rule.additional.fate d.switches parent (undeclared.map Prod.fst) with
  | reject =>
    simp only [checkUndeclared, fate] at accepted
    exact absurd accepted refuse_ne_ok
  | warn =>
    obtain rfl : [] = extra := by simpa [checkUndeclared, fate] using accepted
    exact ⟨by simp, nothing⟩
  | drop =>
    obtain rfl : [] = extra := by simpa [checkUndeclared, fate] using accepted
    exact ⟨by simp, nothing⟩
  | copy =>
    obtain rfl : undeclared = extra := by simpa [checkUndeclared, fate] using accepted
    refine ⟨fun e membership => List.mem_map.mpr ⟨e, membership, rfl⟩, undeclared, ?_⟩
    simp [checkUndeclared, fate]
  | check node =>
    have checked := (checkUndeclared_eq_ok_of_check fate).mp accepted
    have keys : extra.map Prod.fst = undeclared.map Prod.fst :=
      keys_of_forall₂ (checked.imp fun _ _ => And.left)
    refine ⟨fun e membership => keys ▸ List.mem_map.mpr ⟨e, membership, rfl⟩, ?_⟩
    rw [isAccepted_checkUndeclared_iff, keys, fate]
    refine ⟨by simp, ?_⟩
    rintro other same ⟨key, w⟩ isExtra
    obtain rfl := Fate.check.inj same
    obtain ⟨e, isUndeclared, same, passed⟩ := Outcome.exists_mem_left_of_forall₂ checked isExtra
    obtain rfl : key = e.1 := same
    exact again e isUndeclared _ (Additional.mem_nodes_of_fate_eq_check fate) w passed

theorem isAccepted_checkObject_again (distinct : Entries.Distinct rule.properties)
    (noDefault : ∀ p, Offers d.document rule.properties p → p.default? = none)
    (again : ∀ key u, (key, u) ∈ members → ∀ node ∈ (Shape.object rule).nodes, ∀ w,
      (check (path.child (.key key)) u node .object).outcome = .ok w →
        (check (path.child (.key key)) w node .object).IsAccepted)
    (accepted : (d.checkObject check path (.object members) rule parent).outcome = .ok w) :
    w.isNull = false ∧ (d.checkObject check path w rule parent).IsAccepted := by
  obtain ⟨_, ps, results, extra, same, resolved, properties, undeclared, rfl⟩ :=
    checkObject_eq_ok.mp accepted
  obtain rfl := Value.object.inj same
  have named : Named ps results := properties.imp fun _ _ => name_of_checkProperty_eq_ok
  have inAdditional : ∀ e ∈ members.filter (fun e => ps.all fun p => p.name ≠ e.1),
      ∀ node ∈ rule.additional.nodes, ∀ w,
        (check (path.child (.key e.1)) e.2 node .object).outcome = .ok w →
          (check (path.child (.key e.1)) w node .object).IsAccepted := by
    intro e isUndeclared node isNode
    exact again e.1 e.2 (List.mem_filter.mp isUndeclared).1 node (List.mem_append_right _ isNode)
  obtain ⟨extraKeys, undeclaredAgain⟩ := isAccepted_checkUndeclared_again inAdditional undeclared
    (w := .object (results.filterMap id ++ extra))
  have apart : ∀ e ∈ extra, ∀ p ∈ ps, p.name ≠ e.1 := by
    intro e isExtra p isDeclared
    obtain ⟨member, passes, same⟩ := List.mem_map.mp (extraKeys e isExtra)
    have other := List.all_eq_true.mp (List.mem_filter.mp passes).2 p isDeclared
    rw [← same]
    simpa using other
  have found := get?_results named properties (nodup_names_of_declared distinct resolved) apart
  refine ⟨rfl, (isAccepted_checkObject_iff resolved).mpr ⟨?_, ?_⟩⟩
  · refine isAccepted_mapM_iff.mpr fun p isDeclared => isAccepted_checkProperty_iff.mpr ?_
    obtain ⟨result, -, passed, held⟩ := Outcome.exists_mem_right_of_forall₂ found isDeclared
    rw [held]
    cases given : Entries.get? members p.name with
    | some u =>
      obtain ⟨made, checked, rfl⟩ := (checkProperty_eq_ok_of_some given).mp passed
      have isNode : p.node ∈ (Shape.object rule).nodes :=
        ObjectRule.mem_nodes_of_property (mem_properties_of_mem_declared resolved isDeclared).1
      refine ⟨fun w same => ?_, by simp⟩
      obtain rfl : made = w := by simpa using same
      exact again p.name u (Entries.mem_of_get?_eq_some given) p.node isNode made checked
    | none =>
      have filled := noDefault p ((mem_declared_iff resolved).mp isDeclared)
      rcases (checkProperty_eq_ok_of_none given).mp passed with ⟨-, isAny, rfl⟩ | ⟨optional, rfl⟩
      · exact ⟨by simp, fun _ _ => isAny⟩
      · exact ⟨by simp [filled], fun _ isRequired => absurd isRequired optional⟩
  · rw [filter_results named apart]
    exact undeclaredAgain

/-- The branches of an intersection accept what it makes of a value. -/
def Rejoins (d : Validator) (branches : List Schema) : Prop :=
  ∀ path v w, v.isNull = false → (checkAllOf d.validate path v branches).outcome = .ok w →
    (checkAllOf d.validate path w branches).IsAccepted

theorem isNull_merge {v w : Value} (present : w.isNull = false) : (merge v w).isNull = false := by
  unfold merge
  split
  · rfl
  · exact present

theorem isNull_foldl_merge {first : Value} {rest : List Value}
    (present : ∀ result ∈ first :: rest, result.isNull = false) :
    (rest.foldl merge first).isNull = false := by
  induction rest generalizing first with
  | nil => exact present first List.mem_cons_self
  | cons next rest ih =>
    refine ih fun result isResult => ?_
    rcases List.mem_cons.mp isResult with rfl | later
    · exact isNull_merge (present next (by simp))
    · exact present result (by simp [later])

theorem isNull_of_checkAllOf_eq_ok (present : v.isNull = false)
    (each : ∀ branch ∈ branches, ∀ w, (check path v branch .allOf).outcome = .ok w →
      w.isNull = false)
    (accepted : (checkAllOf check path v branches).outcome = .ok w) : w.isNull = false := by
  obtain ⟨results, related, rfl⟩ := checkAllOf_eq_ok.mp accepted
  cases results with
  | nil => exact present
  | cons first rest =>
    refine isNull_foldl_merge fun result isResult => ?_
    obtain ⟨branch, isBranch, passed⟩ := Outcome.exists_mem_left_of_forall₂ related isResult
    exact each branch isBranch result passed

/-- A node whose results are accepted again, if those of the nodes that it leads to are. -/
structure Renewable (d : Validator) (s : Schema) : Prop where
  noDefault : s.default? = none
  keyed : s.Keyed
  rejoins : ∀ branches, s.shape = .allOf branches → d.Rejoins branches

theorem isAccepted_of_accepts {target : Schema} (resolved : d.document.resolve s = .ok target)
    (present : v.isNull = false)
    (accepts : Accepts d d.validate d.validate path v target parent w) :
    (d.validate path v s parent).IsAccepted := by
  refine ⟨w, ?_⟩
  rw [validate_outcome]
  exact step_eq_ok.mpr ⟨target, resolved, .inr ⟨present, accepts⟩⟩

/-- A shape accepts its result again, if that holds of the checks that it makes. -/
theorem accepts_renewed {target : Schema} (grounded : d.document.Grounded s)
    (renewable : ∀ node, d.document.Reaches s node → d.Renewable node)
    (each : ∀ w node, d.document.Calls (v, s) (w, node) → ∀ path parent u,
      (d.validate path w node parent).outcome = .ok u →
        u.isNull = w.isNull ∧ (d.validate path u node parent).IsAccepted)
    (resolved : d.document.resolve s = .ok target) (present : v.isNull = false)
    (accepts : Accepts d d.validate d.validate path v target parent w) :
    w.isNull = false ∧ ∃ u, Accepts d d.validate d.validate path w target parent u := by
  have toTarget : d.document.Reaches s target := Document.reaches_of_resolve_eq_ok resolved
  cases accepts with
  | string shape coerced =>
    obtain ⟨again, presentAgain⟩ := StringRule.coerce_coerce coerced
    exact ⟨presentAgain, _, .string shape again⟩
  | number shape coerced =>
    exact ⟨rfl, _, .number shape (NumberRule.coerce_number coerced)⟩
  | boolean shape _ => exact ⟨rfl, _, .boolean shape rfl⟩
  | any shape => exact ⟨present, _, .any shape⟩
  | unknown shape => exact ⟨present, _, .unknown shape⟩
  | @array rule w shape accepted =>
    obtain ⟨items, results, rfl, -⟩ := checkArray_eq_ok.mp accepted
    have leads : d.document.Leads s rule.items :=
      Document.leads_of_mem_nodes resolved shape (List.mem_singleton_self _)
    obtain ⟨presentAgain, u, again⟩ := isAccepted_checkArray_again (fun i item atItem w passed =>
      (each item _ (.inside (.item atItem) leads) _ _ w passed).2) accepted
    exact ⟨presentAgain, u, .array shape again⟩
  | @object rule w shape accepted =>
    obtain ⟨members, ps, results, extra, rfl, -⟩ := checkObject_eq_ok.mp accepted
    have noDefault (p : Declared) (offers : Offers d.document rule.properties p) :
        p.default? = none := by
      have toProperty := Document.reaches_of_leads (Document.leads_of_mem_nodes resolved shape
        (ObjectRule.mem_nodes_of_property offers.isEntry))
      have toEnd := toProperty.trans (Document.reaches_of_resolve_eq_ok offers.resolved)
      simp [Declared.default?, (renewable _ toProperty).noDefault, (renewable _ toEnd).noDefault]
    obtain ⟨presentAgain, u, again⟩ := isAccepted_checkObject_again
      ((renewable target toTarget).keyed rule shape) noDefault (fun key u isMember node isNode w
        passed => (each u node (.inside (.entry isMember)
          (Document.leads_of_mem_nodes resolved shape isNode)) _ _ w passed).2) accepted
    exact ⟨presentAgain, u, .object shape again⟩
  | @allOf branches w shape accepted =>
    have presentAgain : w.isNull = false := by
      refine isNull_of_checkAllOf_eq_ok present (fun branch isBranch result passed => ?_) accepted
      have isBranch : d.document.Branch s branch := .intersected ⟨target, resolved, shape⟩ isBranch
      exact (each v branch (.across isBranch) _ _ result passed).1.trans present
    obtain ⟨u, again⟩ :=
      (renewable target toTarget).rejoins branches shape path v w present accepted
    exact ⟨presentAgain, u, .allOf shape again⟩
  | @oneOf branches w shape accepted =>
    obtain ⟨branch, isBranch, passed⟩ := exists_branch_of_checkOneOf_eq_ok accepted
    have toBranch {node : Schema} (isNode : node ∈ branches) : d.document.Branch s node :=
      .alternative ⟨target, resolved, shape⟩ isNode
    obtain ⟨same, again⟩ := each v branch (.across (toBranch isBranch)) _ _ w passed
    have decided (node : Schema) (isNode : node ∈ branches) :
        (d.validate path w node .oneOf).IsDecided :=
      isDecided_of_grounded
        (grounded.of_reaches (Document.reaches_of_leads (toBranch isNode).leads)) _ _ _
    obtain ⟨u, again⟩ := isAccepted_checkOneOf_iff.mpr ⟨decided, branch, isBranch, again⟩
    exact ⟨same.trans present, u, .oneOf shape again⟩

/-- Where only renewable nodes can be reached, every result is accepted again. -/
theorem isAccepted_again (grounded : d.document.Grounded schema)
    (renewable : ∀ node, d.document.Reaches schema node → d.Renewable node)
    (accepted : (d.validate path v schema parent).outcome = .ok w) :
    w.isNull = v.isNull ∧ (d.validate path w schema parent).IsAccepted := by
  refine calls_induction (P := fun v s => ∀ path parent w,
    (d.validate path v s parent).outcome = .ok w →
      w.isNull = v.isNull ∧ (d.validate path w s parent).IsAccepted)
    grounded.unlooped ?_ path parent w accepted
  intro v s reaches each path parent w accepted
  have inReach (node : Schema) (deeper : d.document.Reaches s node) : d.Renewable node :=
    renewable node (reaches.trans deeper)
  rw [validate_outcome] at accepted
  obtain ⟨target, resolved, verdict⟩ := step_eq_ok.mp accepted
  rcases verdict with ⟨isNull, nulled⟩ | ⟨present, accepts⟩
  · obtain rfl := Value.eq_null_of_isNull isNull
    obtain ⟨-, same⟩ := checkNull_eq_ok.mp nulled
    have toTarget := Document.reaches_of_resolve_eq_ok resolved
    obtain rfl : w = .null := by
      simpa [(inReach s .refl).noDefault, (inReach target toTarget).noDefault] using same
    refine ⟨rfl, .null, ?_⟩
    rw [validate_outcome]
    exact step_eq_ok.mpr ⟨target, resolved, .inl ⟨rfl, nulled⟩⟩
  · obtain ⟨presentAgain, u, again⟩ :=
      accepts_renewed (grounded.of_reaches reaches) inReach each resolved present accepts
    exact ⟨presentAgain.trans present.symm, isAccepted_of_accepts resolved presentAgain again⟩

end Validator

end ApiContract

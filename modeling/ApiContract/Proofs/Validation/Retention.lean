import ApiContract.Proofs.Validation.Acceptance
import ApiContract.Proofs.Validation.Recursion

/-!
What an accepted value keeps.

Outside of intersections, and with the switch that rejects undeclared keys, no rule of an object
leaves a key out: a key that is not declared is copied, checked or a reason to turn the object down.
So every object inside the value is an object at the same place of the result, with all of its keys,
the read-only ones included.
-/

namespace ApiContract

theorem Entries.get?_append {α : Type} {es others : Entries α} {key : String}
    (absent : ∀ e ∈ es, e.1 ≠ key) : get? (es ++ others) key = get? others key := by
  induction es with
  | nil => rfl
  | cons e es ih =>
    have other : e.1 ≠ key := absent e List.mem_cons_self
    simpa [get?, other] using ih fun e later => absent e (List.mem_cons_of_mem _ later)

namespace Value

/-- Wherever the value has an object, the other value has an object with at least its keys. -/
def KeptIn (v w : Value) : Prop :=
  ∀ steps members, v.at? steps = some (.object members) →
    ∃ results, w.at? steps = some (.object results) ∧
      ∀ key ∈ Entries.keys members, key ∈ Entries.keys results

variable {v w : Value} {members results : List (String × Value)} {items others : List Value}

theorem KeptIn.refl (v : Value) : v.KeptIn v :=
  fun _ members found => ⟨members, found, fun _ isKey => isKey⟩

theorem keptIn_of_scalar (noObject : ∀ members, v ≠ .object members)
    (noStep : ∀ s, v.step? s = none) : v.KeptIn w := by
  intro steps members found
  cases steps with
  | nil =>
    have isObject : v = .object members := by simpa using found
    exact absurd isObject (noObject members)
  | cons s steps => simp [at?, noStep] at found

theorem keptIn_array (same : items.length = others.length)
    (each : ∀ (i : Nat) item other, items[i]? = some item → others[i]? = some other →
      item.KeptIn other) : (array items).KeptIn (array others) := by
  intro steps members found
  cases steps with
  | nil => simp at found
  | cons s steps =>
    obtain ⟨item, stepped, inItem⟩ := Option.bind_eq_some_iff.mp found
    cases s with
    | key name => simp [step?] at stepped
    | index i =>
      have atItem : items[i]? = some item := stepped
      obtain ⟨other, atOther⟩ : ∃ other, others[i]? = some other := by
        have bound := (List.getElem?_eq_some_iff.mp atItem).1
        exact ⟨others[i], List.getElem?_eq_getElem (same ▸ bound)⟩
      obtain ⟨results, reached, keys⟩ := each i item other atItem atOther steps members inItem
      refine ⟨results, ?_, keys⟩
      rw [at?, step?, atOther]
      exact reached

theorem keptIn_object
    (each : ∀ key v, Entries.get? members key = some v →
      ∃ w, Entries.get? results key = some w ∧ v.KeptIn w) :
    (object members).KeptIn (object results) := by
  intro steps inner found
  cases steps with
  | nil =>
    obtain rfl : members = inner := by simpa using found
    refine ⟨results, rfl, fun key isKey => ?_⟩
    obtain ⟨v, given⟩ := Option.isSome_iff_exists.mp (Entries.mem_keys_iff.mp isKey)
    obtain ⟨w, kept, -⟩ := each key v given
    exact Entries.mem_keys_iff.mpr (by simp [kept])
  | cons s steps =>
    obtain ⟨v, stepped, inMember⟩ := Option.bind_eq_some_iff.mp found
    cases s with
    | index i => simp [step?] at stepped
    | key name =>
      obtain ⟨w, kept, below⟩ := each name v stepped
      obtain ⟨others, reached, keys⟩ := below steps inner inMember
      refine ⟨others, ?_, keys⟩
      rw [at?, step?, kept]
      exact reached

end Value

theorem StringRule.keptIn_of_coerce_eq_ok {rule : StringRule} {v w other : Value}
    (accepted : rule.coerce v = .ok w) : v.KeptIn other := by
  apply Value.keptIn_of_scalar
  · rintro members rfl
    simp [coerce] at accepted
  · intro s
    cases coerce_eq_ok_iff.mp accepted <;> rfl

theorem NumberRule.keptIn_of_coerce_eq_ok {rule : NumberRule} {readsText : Bool} {v other : Value}
    {x : Binary64} (accepted : rule.coerce readsText v = .ok x) : v.KeptIn other := by
  obtain ⟨read, -⟩ := coerce_eq_ok_iff.mp accepted
  apply Value.keptIn_of_scalar
  · rintro members rfl
    simp [read?] at read
  · intro s
    cases v <;> simp [read?] at read <;> rfl

theorem Value.keptIn_of_toBool?_eq_some {v other : Value} {b : Bool} (read : v.toBool? = some b) :
    v.KeptIn other := by
  apply keptIn_of_scalar
  · rintro members rfl
    simp [toBool?] at read
  · intro s
    cases v <;> simp [toBool?] at read <;> rfl

namespace Validator

variable {d : Validator} {check inside across : Check} {path : Path} {v w : Value}
  {parent : Parent} {rule : ObjectRule Schema} {ps : List Declared} {required : List String}
  {members undeclared extra : List (String × Value)} {results : List (Option (String × Value))}
  {key : String}

theorem keptIn_of_checkArray_eq_ok {rule : ArrayRule Schema}
    (keeps : ∀ path v w, (check path v rule.items .array).outcome = .ok w → v.KeptIn w)
    (accepted : (checkArray check path v rule).outcome = .ok w) : v.KeptIn w := by
  obtain ⟨items, results, rfl, -, related, rfl⟩ := checkArray_eq_ok.mp accepted
  apply Value.keptIn_array (by simpa using related.length_eq)
  intro i item result atItem atResult
  exact keeps _ item result (forall₂_zipIdx_getElem? related atItem atResult)

theorem exists_result_of_declared
    (checked : List.Forall₂ (fun p result =>
      (checkProperty check path required members p).outcome = .ok result) ps results)
    (given : Entries.get? members key = some v) (isDeclared : ∃ p ∈ ps, p.name = key) :
    ∃ p ∈ ps, ∃ w, Entries.get? (results.filterMap id ++ extra) key = some w ∧
      (check (path.child (.key key)) v p.node .object).outcome = .ok w := by
  induction checked with
  | nil => simp at isDeclared
  | @cons p result ps results first _ ih =>
    by_cases same : p.name = key
    · subst same
      obtain ⟨w, passed, rfl⟩ := (checkProperty_eq_ok_of_some given).mp first
      exact ⟨p, List.mem_cons_self, w, by simp [Entries.get?], passed⟩
    · have later : ∃ q ∈ ps, q.name = key := by
        obtain ⟨q, membership, name⟩ := isDeclared
        rcases List.mem_cons.mp membership with rfl | later
        · exact absurd name same
        · exact ⟨q, later, name⟩
      obtain ⟨q, isLater, w, found, passed⟩ := ih later
      refine ⟨q, List.mem_cons_of_mem p isLater, w, ?_, passed⟩
      cases result with
      | none => simpa using found
      | some e =>
        have other : e.1 ≠ key := name_of_checkProperty_eq_ok first e rfl ▸ same
        simpa [Entries.get?, other] using found

/-- Outside of an intersection the switch lets no undeclared key be stripped. -/
theorem not_strips_of_rejects (rejects : d.switches.rejectUndeclared = true)
    (outside : parent ≠ .allOf) : ¬rule.additional.Strips d.switches parent := by
  intro strips
  exact outside ((Additional.strips_iff.mp strips).2 rejects).1

theorem get?_of_checked {node : Schema}
    (checked : List.Forall₂ (fun e result => result.1 = e.1 ∧
      (check (path.child (.key e.1)) e.2 node .object).outcome = .ok result.2) undeclared extra)
    (given : Entries.get? undeclared key = some v) :
    ∃ w, Entries.get? extra key = some w ∧
      (check (path.child (.key key)) v node .object).outcome = .ok w := by
  induction checked with
  | nil => simp at given
  | @cons e result rest results first _ ih =>
    obtain ⟨name, passed⟩ := first
    by_cases same : e.1 = key
    · subst same
      obtain rfl : e.2 = v := by simpa [Entries.get?] using given
      exact ⟨result.2, by simp [Entries.get?, name], passed⟩
    · obtain ⟨w, found, passed⟩ := ih (by simpa [Entries.get?, same] using given)
      exact ⟨w, by simpa [Entries.get?, name, same] using found, passed⟩

theorem exists_extra_of_undeclared (noticed : ¬rule.additional.Strips d.switches parent)
    (keeps : ∀ path v node w, node ∈ rule.additional.nodes →
      (check path v node .object).outcome = .ok w → v.KeptIn w)
    (accepted : (d.checkUndeclared check path w parent rule undeclared).outcome = .ok extra)
    (given : Entries.get? undeclared key = some v) :
    ∃ u, Entries.get? extra key = some u ∧ v.KeptIn u := by
  have some : undeclared.map Prod.fst ≠ [] := by
    intro none
    simp [List.map_eq_nil_iff.mp none] at given
  cases fate : rule.additional.fate d.switches parent (undeclared.map Prod.fst) with
  | reject =>
    simp only [checkUndeclared, fate] at accepted
    exact absurd accepted refuse_ne_ok
  | warn => exact absurd (Additional.strips_of_fate some (.inr fate)) noticed
  | drop => exact absurd (Additional.strips_of_fate some (.inl fate)) noticed
  | copy =>
    obtain rfl : undeclared = extra := by simpa [checkUndeclared, fate] using accepted
    exact ⟨v, given, .refl v⟩
  | check node =>
    obtain ⟨u, found, passed⟩ :=
      get?_of_checked ((checkUndeclared_eq_ok_of_check fate).mp accepted) given
    exact ⟨u, found, keeps _ v node u (Additional.mem_nodes_of_fate_eq_check fate) passed⟩

theorem keptIn_of_checkObject_eq_ok (noticed : ¬rule.additional.Strips d.switches parent)
    (keeps : ∀ path v node w, node ∈ (Shape.object rule).nodes →
      (check path v node .object).outcome = .ok w → v.KeptIn w)
    (accepted : (d.checkObject check path v rule parent).outcome = .ok w) : v.KeptIn w := by
  obtain ⟨members, ps, results, extra, rfl, resolved, checked, undeclared, rfl⟩ :=
    checkObject_eq_ok.mp accepted
  apply Value.keptIn_object
  intro key v given
  by_cases isDeclared : ∃ p ∈ ps, p.name = key
  · obtain ⟨p, inDeclared, w, found, passed⟩ := exists_result_of_declared checked given isDeclared
    have inRule := ObjectRule.mem_nodes_of_property
      (mem_properties_of_mem_declared resolved inDeclared).1
    exact ⟨w, found, keeps _ v p.node w inRule passed⟩
  · have other (p : Declared) (inDeclared : p ∈ ps) : p.name ≠ key :=
      fun name => isDeclared ⟨p, inDeclared, name⟩
    have isUndeclared : Entries.get? (members.filter fun e => ps.all fun p => p.name ≠ e.1) key =
        some v := by
      rw [Entries.get?_filter_keys members (fun name => ps.all fun p => p.name ≠ name), given]
      simpa using other
    obtain ⟨w, found, kept⟩ := exists_extra_of_undeclared noticed
      (fun path v node w isNode => keeps path v node w (List.mem_append_right _ isNode))
      undeclared isUndeclared
    refine ⟨w, ?_, kept⟩
    rw [Entries.get?_append, found]
    intro e isResult name
    have named : Named ps results := checked.imp fun _ _ => name_of_checkProperty_eq_ok
    obtain ⟨p, inDeclared, same⟩ := named.exists_of_mem isResult
    exact other p inDeclared (same.symm.trans name)

/-- Outside of intersections, and where none can be reached, what a check accepts it keeps. -/
def Retains (d : Validator) (check : Check) : Prop :=
  ∀ path v schema parent w,
    (∀ node, d.document.Reaches schema node → ∀ branches, node.shape ≠ .allOf branches) →
    parent ≠ .allOf → (check path v schema parent).outcome = .ok w → v.KeptIn w

theorem retains_giveUp (d : Validator) : d.Retains giveUp := by
  intro path v schema parent w _ _ accepted
  simp [giveUp] at accepted

theorem retains_step (rejects : d.switches.rejectUndeclared = true)
    (insideRetains : d.Retains inside) (acrossRetains : d.Retains across) :
    d.Retains (d.step inside across) := by
  intro path v schema parent w noIntersection outside stepped
  obtain ⟨target, resolved, accepted⟩ := step_eq_ok.mp stepped
  have inTarget {node : Schema} (isChild : node ∈ target.shape.nodes) (other : Schema)
      (reaches : d.document.Reaches node other) (branches : List Schema) :
      other.shape ≠ .allOf branches :=
    noIntersection other ((Document.reaches_of_leads ⟨target, resolved, isChild⟩).trans reaches)
      branches
  rcases accepted with ⟨isNull, -⟩ | ⟨-, accepts⟩
  · obtain rfl := Value.eq_null_of_isNull isNull
    exact Value.keptIn_of_scalar (by simp) fun _ => rfl
  cases accepts with
  | string _ coerced => exact StringRule.keptIn_of_coerce_eq_ok coerced
  | number _ coerced => exact NumberRule.keptIn_of_coerce_eq_ok coerced
  | boolean _ read => exact Value.keptIn_of_toBool?_eq_some read
  | array shape accepted =>
    rw [shape] at inTarget
    apply keptIn_of_checkArray_eq_ok _ accepted
    intro path v w passed
    exact insideRetains path v _ _ w (inTarget (by simp [Shape.nodes])) (by simp) passed
  | object shape accepted =>
    rw [shape] at inTarget
    apply keptIn_of_checkObject_eq_ok (not_strips_of_rejects rejects outside) _ accepted
    intro path v node w inRule passed
    exact insideRetains path v node _ w (inTarget inRule) (by simp) passed
  | allOf shape _ =>
    exact absurd shape (noIntersection target (Document.reaches_of_resolve_eq_ok resolved) _)
  | oneOf shape accepted =>
    rw [shape] at inTarget
    obtain ⟨branch, isBranch, passed⟩ := exists_branch_of_checkOneOf_eq_ok accepted
    exact acrossRetains path v branch _ w (inTarget isBranch) (by simp) passed
  | any _ => exact .refl v
  | unknown _ => exact .refl v

/-- With the switch that rejects undeclared keys, outside of intersections and where none can be
reached, an accepted value loses no key: at every place where it has an object the result has an
object with at least the same keys. -/
theorem no_key_lost {d : Validator} {path : Path} {v w : Value} {schema : Schema} {parent : Parent}
    (rejects : d.switches.rejectUndeclared = true) (outside : parent ≠ .allOf)
    (noIntersection : ∀ node, d.document.Reaches schema node →
      ∀ branches, node.shape ≠ .allOf branches)
    (accepted : (d.validate path v schema parent).outcome = .ok w) :
    ∀ steps members, v.at? steps = some (.object members) →
      ∃ results, w.at? steps = some (.object results) ∧
        ∀ key ∈ Entries.keys members, key ∈ Entries.keys results :=
  checkWithin_induction d (retains_giveUp d) (fun _ _ => retains_step rejects) (d.nodeCount schema)
    (v.depth + 1) path v schema parent w noIntersection outside accepted

def part : Schema :=
  .withAdditional (.object [("id", .asReadOnly .integer),
    ("note", .asNullable (.withDefault .string (.string "-")))] []) (.allowed true)

def stockDocument : Document := { schemas := [("Part", part)] }

def stock : Schema :=
  .withAdditional (.object [("parts", .array (.oneOf [.reference "Part", .boolean]))] [])
    (.schema .any)

def givenStock : Value :=
  .object [("site", .object [("city", .string "Oslo")]),
    ("parts", .array [.object [("id", .string "A7"), ("note", .null), ("size", .string "L")]])]

def acceptedStock : Value :=
  .object [("parts", .array [.object [("note", .string "-"), ("id", .string "A7"),
    ("size", .string "L")]]), ("site", .object [("city", .string "Oslo")])]

theorem stock_noIntersection (node : Schema) (reaches : stockDocument.Reaches stock node)
    (branches : List Schema) : node.shape ≠ .allOf branches := by
  have reached : node ∈ [stock, .array (.oneOf [.reference "Part", .boolean]), .any,
      .oneOf [.reference "Part", .boolean], .reference "Part", .boolean, part,
      .asReadOnly .integer, .asNullable (.withDefault .string (.string "-"))] := by
    apply Document.mem_of_reaches _ _ List.mem_cons_self reaches
    · simp [stockDocument, Entries.values]
    · simp [Schema.children, stock, part, Schema.withAdditional, Schema.object, Schema.array,
        Schema.oneOf, Schema.reference, Schema.any, Schema.boolean, Schema.integer, Schema.string,
        Schema.plain, Schema.asReadOnly, Schema.asNullable, Schema.withDefault, Shape.nodes,
        Additional.nodes, Entries.values, Entries.ofList, Entries.extend, Entries.insert]
  simp only [List.mem_cons, List.not_mem_nil, or_false] at reached
  rcases reached with rfl | rfl | rfl | rfl | rfl | rfl | rfl | rfl | rfl <;>
    simp [stock, part, Schema.withAdditional, Schema.object, Schema.array, Schema.oneOf,
      Schema.reference, Schema.any, Schema.boolean, Schema.integer, Schema.string, Schema.plain,
      Schema.asReadOnly, Schema.asNullable, Schema.withDefault]

theorem givenStock_keys_kept :
    (validate { document := stockDocument, switches := { rejectUndeclared := true } }
        { root := "body" } givenStock stock .unknown).outcome = .ok acceptedStock ∧
      (∀ node, stockDocument.Reaches stock node → ∀ branches, node.shape ≠ .allOf branches) ∧
      ∃ results, acceptedStock.at? [.key "parts", .index 0] = some (.object results) ∧
        ∀ key ∈ ["id", "note", "size"], key ∈ Entries.keys results := by
  have checked : (checkWithin
      { document := stockDocument, switches := { rejectUndeclared := true } } 3 4
      { root := "body" } givenStock stock .unknown).outcome = .ok acceptedStock := rfl
  have accepted := validate_outcome_of_checkWithin checked (by simp)
  exact ⟨accepted, stock_noIntersection,
    no_key_lost rfl (by simp) stock_noIntersection accepted [.key "parts", .index 0] _ rfl⟩

end Validator

end ApiContract

import ApiContract.Proofs.Validation.Agreement

/-!
The order of keys does not matter.

The undeclared keys of an object are checked in the order of the input, and there two runs may stop
at different keys. A union is decided by the number of keys of its results, which is the same for
reordered results, so both runs select the same branch.
-/

namespace ApiContract

namespace Validator

open Report

variable {d : Validator} {check inside across : Check} {path : Path} {v v' w w' : Value}
  {schema : Schema} {parent : Parent} {branches : List Schema} {rule : ObjectRule Schema}
  {members others undeclared undeclared' : List (String × Value)}

def IgnoresOrder (check : Check) (path : Path) (schema : Schema) (parent : Parent) : Prop :=
  ∀ v v', v.Reordered v' →
    Agree Value.Reordered (check path v schema parent) (check path v' schema parent)

def EntryReordered (e e' : String × Value) : Prop := e'.1 = e.1 ∧ e.2.Reordered e'.2

/-- A check that refuses arrays and objects sees nothing of the order of keys. -/
theorem scalar_agree (scalar : Value → Validation)
    (refuses : ∀ items members,
      (scalar (.array items)).IsRefused ∧ (scalar (.object members)).IsRefused)
    (reordered : v.Reordered v') : Agree Value.Reordered (scalar v) (scalar v') := by
  cases reordered with
  | refl => exact .refl fun _ => .refl
  | array => exact .of_isRefused (refuses _ []).1 (refuses _ []).1
  | object => exact .of_isRefused (refuses [] _).2 (refuses [] _).2

theorem checkArray_agree {rule : ArrayRule Schema}
    (inner : ∀ segment, IgnoresOrder check (path.child segment) rule.items .array)
    (reordered : v.Reordered v') :
    Agree Value.Reordered (checkArray check path v rule) (checkArray check path v' rule) := by
  cases reordered with
  | refl => exact .refl fun _ => .refl
  | object => exact .of_isRefused isRefused_refuse isRefused_refuse
  | @array items items' related =>
    unfold checkArray
    simp only [← related.length_eq]
    cases violation : countViolation? rule items.length with
    | some reason => exact .of_isRefused isRefused_refuse isRefused_refuse
    | none =>
      refine (Agree.mapM ((Outcome.forall₂_zipIdx related 0).imp ?_)).bind fun _ _ results =>
        .of_ok rfl rfl (.array results)
      rintro ⟨item, i⟩ ⟨item', _⟩ ⟨reordered, rfl⟩
      exact inner (.index i) item item' reordered

theorem checkProperty_agree {required : List String} {p : Declared}
    (inner : IgnoresOrder check (path.child (.key p.name)) p.node .object)
    (alike : Entries.Alike Value.Reordered members others) :
    Agree (Option.Rel EntryReordered) (checkProperty check path required members p)
      (checkProperty check path required others p) := by
  have values := alike.get? p.name
  unfold checkProperty
  generalize Entries.get? members p.name = found, Entries.get? others p.name = found' at values ⊢
  cases values with
  | some reordered =>
    exact (inner _ _ reordered).bind fun _ _ results => .of_ok rfl rfl (.some ⟨rfl, results⟩)
  | none =>
    refine .refl fun result => ?_
    cases result with
    | none => exact .none
    | some e => exact .some ⟨rfl, .refl⟩

theorem checkUndeclared_agree
    (inner : ∀ key node, node ∈ rule.additional.nodes →
      IgnoresOrder check (path.child (.key key)) node .object)
    (alike : Entries.Alike Value.Reordered undeclared undeclared') :
    Agree (Entries.Alike Value.Reordered) (d.checkUndeclared check path v parent rule undeclared)
      (d.checkUndeclared check path v' parent rule undeclared') := by
  have sameFate : rule.additional.fate d.switches parent (undeclared'.map Prod.fst) =
      rule.additional.fate d.switches parent (undeclared.map Prod.fst) :=
    rule.additional.fate_of_length_eq d.switches parent (by simp [alike.length_eq])
  cases fate : rule.additional.fate d.switches parent (undeclared.map Prod.fst) with
  | check node =>
    rw [checkUndeclared_of_check fate, checkUndeclared_of_check (sameFate.trans fate)]
    have isNode := Additional.mem_nodes_of_fate_eq_check fate
    exact .mapM_keyed alike fun key => inner key node isNode
  | reject =>
    exact .of_isRefused (isRefused_checkUndeclared_of_fate fate)
      (isRefused_checkUndeclared_of_fate (sameFate.trans fate))
  | copy =>
    simp only [checkUndeclared, fate, sameFate]
    exact .of_ok rfl rfl alike
  | warn =>
    simp only [checkUndeclared, fate, sameFate]
    exact .of_ok rfl rfl (.refl (fun _ => .refl) [])
  | drop =>
    simp only [checkUndeclared, fate, sameFate]
    exact .of_ok rfl rfl (.refl (fun _ => .refl) [])

theorem checkObject_agree
    (inner : ∀ segment node, node ∈ (Shape.object rule).nodes →
      IgnoresOrder check (path.child segment) node .object)
    (reordered : v.Reordered v') :
    Agree Value.Reordered (d.checkObject check path v rule parent)
      (d.checkObject check path v' rule parent) := by
  cases reordered with
  | refl => exact .refl fun _ => .refl
  | array => exact .of_isRefused isRefused_refuse isRefused_refuse
  | @object members others alike =>
    unfold checkObject
    cases resolved : declared d.document rule.properties with
    | error cause => exact fun _ _ => .inr (by simp [IsAccepted, Except.mapError])
    | ok ps =>
      simp only [Except.mapError, ofExcept_ok, pure_bind_report]
      have declaredAgree : Agree (List.Forall₂ (Option.Rel EntryReordered))
          (ps.mapM (checkProperty check path rule.required members))
          (ps.mapM (checkProperty check path rule.required others)) := by
        refine .mapM (List.forall₂_same.mpr fun p isDeclared => checkProperty_agree ?_ alike)
        have isProperty := (mem_properties_of_mem_declared resolved isDeclared).1
        exact inner _ p.node (ObjectRule.mem_nodes_of_property isProperty)
      refine declaredAgree.bind fun entries entries' properties => ?_
      have undeclared := Entries.Alike.filter_keys alike fun key => ps.all fun p => p.name ≠ key
      refine (checkUndeclared_agree (fun key node inRule => ?_) undeclared).bind
        fun extra extra' added => .of_ok rfl rfl (.object ?_)
      · exact inner (.key key) node (List.mem_append_right _ inRule)
      · exact (Entries.Alike.of_forall₂ (Outcome.forall₂_filterMap_id properties)).append added

theorem merge_eq (v w : Value) :
    merge v w = match v.object?, w.object? with
      | some members, some more => .object (Entries.extend members more)
      | _, _ => w := by
  cases v <;> cases w <;> rfl

theorem merge_reordered (first : v.Reordered v') (later : w.Reordered w') :
    (merge v w).Reordered (merge v' w') := by
  have members := first.object?
  have more := later.object?
  rw [merge_eq, merge_eq]
  generalize v.object? = es, v'.object? = es' at members ⊢
  generalize w.object? = fs, w'.object? = fs' at more ⊢
  cases members with
  | none => exact later
  | some alike =>
    cases more with
    | none => exact later
    | some others => exact .object (alike.extend others)

theorem foldl_merge_reordered {results results' : List Value}
    (related : List.Forall₂ Value.Reordered results results') (first : v.Reordered v') :
    (results.foldl merge v).Reordered (results'.foldl merge v') := by
  induction related generalizing v v' with
  | nil => exact first
  | cons next _ ih => exact ih (merge_reordered first next)

theorem checkAllOf_agree
    (branch : ∀ node ∈ branches, IgnoresOrder check path node .allOf)
    (reordered : v.Reordered v') :
    Agree Value.Reordered (checkAllOf check path v branches)
      (checkAllOf check path v' branches) := by
  unfold checkAllOf
  refine (Agree.mapM (List.forall₂_same.mpr fun node isBranch =>
    branch node isBranch v v' reordered)).bind fun results results' related => ?_
  cases related with
  | nil => exact .of_ok rfl rfl reordered
  | cons first rest => exact .of_ok rfl rfl (foldl_merge_reordered rest first)

def CandidateReordered (c c' : Nat × Value) : Prop := c'.1 = c.1 ∧ c.2.Reordered c'.2

theorem isRicher_eq (v w : Value) :
    isRicher v w = match v.object?, w.object? with
      | some members, some more => decide (members.length < more.length)
      | _, _ => false := by
  cases v <;> cases w <;> rfl

theorem isRicher_eq_of_reordered (first : v.Reordered v') (later : w.Reordered w') :
    isRicher v' w' = isRicher v w := by
  have members := first.object?
  have more := later.object?
  rw [isRicher_eq, isRicher_eq]
  generalize v.object? = es, v'.object? = es' at members ⊢
  generalize w.object? = fs, w'.object? = fs' at more ⊢
  cases members with
  | none => rfl
  | some alike =>
    cases more with
    | none => rfl
    | some others => simp only [alike.length_eq, others.length_eq]

theorem richest_reordered {results results' : List (Nat × Value)}
    (related : List.Forall₂ CandidateReordered results results') :
    Option.Rel CandidateReordered (richest results) (richest results') := by
  cases related with
  | nil => exact .none
  | @cons first first' rest rest' candidate others =>
    refine .some ?_
    induction others generalizing first first' with
    | nil => exact candidate
    | cons next _ ih =>
      rw [List.foldl_cons, List.foldl_cons, isRicher_eq_of_reordered candidate.2 next.2]
      apply ih
      split
      · exact next
      · exact candidate

theorem tryBranch_agree {node : Schema} {index : Nat}
    (faultless : ∀ v cause, (check path v node .oneOf).outcome ≠ .error (.schema cause))
    (branch : IgnoresOrder check path node .oneOf) (reordered : v.Reordered v') :
    Agree (Option.Rel CandidateReordered) (tryBranch check path v node index)
      (tryBranch check path v' node index) := by
  intro ends ends'
  have branchEnds := ends_of_tryBranch ends
  have branchEnds' := ends_of_tryBranch ends'
  left
  rcases branch v v' reordered branchEnds branchEnds' with
    ⟨w, w', accepted, accepted', results⟩ | ⟨stops, stops'⟩
  · exact ⟨some (index, w), some (index, w'), tryBranch_eq_ok.mpr (.inl ⟨w, accepted, rfl⟩),
      tryBranch_eq_ok.mpr (.inl ⟨w', accepted', rfl⟩), .some ⟨rfl, results⟩⟩
  · obtain ⟨failure, refused⟩ := (branchEnds.isDecided (faultless v)).resolve_left stops
    obtain ⟨failure', refused'⟩ := (branchEnds'.isDecided (faultless v')).resolve_left stops'
    exact ⟨none, none, tryBranch_eq_ok.mpr (.inr ⟨failure, refused, rfl⟩),
      tryBranch_eq_ok.mpr (.inr ⟨failure', refused', rfl⟩), .none⟩

theorem checkOneOf_agree
    (faultless : ∀ node ∈ branches, ∀ v cause,
      (check path v node .oneOf).outcome ≠ .error (.schema cause))
    (branch : ∀ node ∈ branches, IgnoresOrder check path node .oneOf)
    (reordered : v.Reordered v') :
    Agree Value.Reordered (checkOneOf check path v branches)
      (checkOneOf check path v' branches) := by
  unfold checkOneOf
  have triesAgree : Agree (List.Forall₂ (Option.Rel CandidateReordered))
      (branches.zipIdx.mapM fun e => tryBranch check path v e.1 e.2)
      (branches.zipIdx.mapM fun e => tryBranch check path v' e.1 e.2) := by
    refine .mapM (List.forall₂_same.mpr fun e isEntry => ?_)
    have isBranch : e.1 ∈ branches := List.fst_mem_of_mem_zipIdx isEntry
    exact tryBranch_agree (faultless e.1 isBranch) (branch e.1 isBranch) reordered
  refine triesAgree.bind fun results results' related => ?_
  have selected := richest_reordered (Outcome.forall₂_filterMap_id related)
  generalize richest (results.filterMap id) = best, richest (results'.filterMap id) = best'
    at selected ⊢
  cases selected with
  | none => exact .of_isRefused isRefused_refuse isRefused_refuse
  | some candidate => exact .of_ok rfl rfl candidate.2

/-- At closed schemas a check meets no fault, and ignores the order of keys. -/
structure Orderless (document : Document) (check : Check) : Prop where
  faultless : Faultless document check
  ignores : ∀ path schema parent, document.Closed schema → IgnoresOrder check path schema parent

theorem orderless_step (checked : d.document.checkReferences = .ok ())
    (insideOrderless : Orderless d.document inside)
    (acrossOrderless : Orderless d.document across) :
    Orderless d.document (d.step inside across) where
  faultless := faultless_step checked insideOrderless.faultless acrossOrderless.faultless
  ignores path schema parent closed v v' reordered := by
    obtain ⟨target, resolved⟩ := closed.resolves
    have child {node : Schema} (inShape : node ∈ target.shape.nodes) : d.document.Closed node :=
      (closed.of_resolve_eq_ok checked resolved).child inShape
    unfold step
    rw [reordered.isNull_eq]
    simp only [resolved, Except.mapError, ofExcept_ok, pure_bind_report]
    split
    · exact .refl fun _ => .refl
    cases shape : target.shape with
    | string rule =>
      refine scalar_agree (checkString path · rule) (fun _ _ => ?_) reordered
      exact ⟨isRefused_refuse, isRefused_refuse⟩
    | number rule =>
      refine scalar_agree (d.checkNumber path · rule) (fun _ _ => ?_) reordered
      exact ⟨isRefused_refuse, isRefused_refuse⟩
    | boolean =>
      refine scalar_agree (checkBoolean path) (fun _ _ => ?_) reordered
      exact ⟨isRefused_refuse, isRefused_refuse⟩
    | array rule =>
      refine checkArray_agree (fun segment => ?_) reordered
      exact insideOrderless.ignores _ _ _ (child (by simp [shape, Shape.nodes]))
    | object rule =>
      refine checkObject_agree (fun segment node inRule => ?_) reordered
      exact insideOrderless.ignores _ node _ (child (by rwa [shape]))
    | allOf branches =>
      refine checkAllOf_agree (fun node isBranch => ?_) reordered
      exact acrossOrderless.ignores path node _ (child (by rwa [shape]))
    | oneOf branches =>
      refine checkOneOf_agree (fun node isBranch v cause => ?_) (fun node isBranch => ?_) reordered
      · exact acrossOrderless.faultless path v node _ cause (child (by rwa [shape]))
      · exact acrossOrderless.ignores path node _ (child (by rwa [shape]))
    | any => exact .of_ok rfl rfl reordered
    | unknown raw => exact .of_ok rfl rfl reordered
    | ref reference => exact fun _ _ => .inr (by simp [IsAccepted])

theorem orderless_checkWithin (checked : d.document.checkReferences = .ok ())
    (links levels : Nat) : Orderless d.document (d.checkWithin links levels) := by
  refine checkWithin_induction d ⟨faultless_giveUp d.document, ?_⟩
    (fun _ _ => orderless_step checked) links levels
  exact fun _ _ _ _ _ _ _ ends => absurd rfl ends

/-- The order of keys does not matter: two values that differ in it, at any depth, are both accepted
with results that differ in no more, or both refused. -/
theorem key_order_irrelevant (checked : d.document.checkReferences = .ok ())
    (closed : d.document.Closed schema) (reordered : v.Reordered v')
    (ends : (d.validate path v schema parent).Ends)
    (ends' : (d.validate path v' schema parent).Ends) :
    (∃ w w', (d.validate path v schema parent).outcome = .ok w ∧
        (d.validate path v' schema parent).outcome = .ok w' ∧ w.Reordered w') ∨
      (d.validate path v schema parent).IsRefused ∧
        (d.validate path v' schema parent).IsRefused := by
  -- The values may be of different depth, so both checks are taken to levels that suffice for both.
  have deep : v.depth < max v.depth v'.depth + 1 := by omega
  have deep' : v'.depth < max v.depth v'.depth + 1 := by omega
  have same := validate_below_checkWithin deep (d.self_mem_scope schema) ends
  have same' := validate_below_checkWithin deep' (d.self_mem_scope schema) ends'
  have agree := (orderless_checkWithin checked (d.nodeCount schema)
    (max v.depth v'.depth + 1)).ignores path schema parent closed v v' reordered
  rw [same, same'] at agree
  rcases agree ends ends' with accepted | ⟨stops, stops'⟩
  · exact .inl accepted
  · have faultless := validate_ne_schema checked closed path v parent
    have faultless' := validate_ne_schema checked closed path v' parent
    exact .inr ⟨(ends.isDecided faultless).resolve_left stops,
      (ends'.isDecided faultless').resolve_left stops'⟩

/-- A validator that copies keys where they are allowed. -/
def ledgerKeeper : Validator :=
  { document := ledgerDocument, switches := { rejectUndeclared := true } }

def twoLines : Value :=
  .object [("first", .object [("kind", .string "note"), ("flag", .string "1")]),
    ("second", .object [("kind", .string "page"), ("flag", .string "0")])]

def twoLinesReversed : Value :=
  .object [("second", .object [("flag", .string "0"), ("kind", .string "page")]),
    ("first", .object [("flag", .string "1"), ("kind", .string "note")])]

theorem twoLines_reordered : twoLines.Reordered twoLinesReversed :=
  Value.reordered_pair (by decide) (Value.reordered_pair (by decide) .refl .refl)
    (Value.reordered_pair (by decide) .refl .refl)

theorem twoLines_accepted_reversed :
    ledgerDocument.checkReferences = .ok () ∧ ledgerDocument.Closed (.reference "Ledger") ∧
      twoLines.Reordered twoLinesReversed ∧
      (ledgerKeeper.validate { root := "q" } twoLines (.reference "Ledger") .unknown).Ends ∧
      (ledgerKeeper.validate { root := "q" } twoLinesReversed (.reference "Ledger")
        .unknown).Ends ∧
      ∃ w w', (ledgerKeeper.validate { root := "q" } twoLines (.reference "Ledger")
          .unknown).outcome = .ok w ∧
        (ledgerKeeper.validate { root := "q" } twoLinesReversed (.reference "Ledger")
          .unknown).outcome = .ok w' ∧ w.Reordered w' := by
  have closed : ledgerDocument.Closed (.reference "Ledger") :=
    .of_isReference ⟨"Ledger", rfl⟩ ⟨ledger, rfl⟩
  have accepted : (ledgerKeeper.validate { root := "q" } twoLines (.reference "Ledger")
      .unknown).IsAccepted :=
    (checkWithin_below_validate 4 3).isAccepted ⟨twoLines, rfl⟩
  have accepted' : (ledgerKeeper.validate { root := "q" } twoLinesReversed (.reference "Ledger")
      .unknown).IsAccepted :=
    (checkWithin_below_validate 4 3).isAccepted ⟨_, rfl⟩
  have ends := IsDecided.ends (.inl accepted)
  have ends' := IsDecided.ends (.inl accepted')
  refine ⟨ledgerDocument_checkReferences, closed, twoLines_reordered, ends, ends', ?_⟩
  refine (key_order_irrelevant (d := ledgerKeeper) ledgerDocument_checkReferences closed
    twoLines_reordered ends ends').resolve_right fun refused => ?_
  exact accepted.not_isRefused refused.1

end Validator

end ApiContract

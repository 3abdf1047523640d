import ApiContract.Proofs.Validation.Soundness
import ApiContract.Proofs.Validation.Strictness
import ApiContract.Proofs.Validation.View

/-!
What a check accepts it also accepts when undeclared keys are not rejected.

The two checks need not take the same way. Without the switch more branches of a union accept the
value, another one may be selected, and keys that were copied are left out. So the results are not
compared: a report `Relaxes` to another if the second accepts whenever the first one does and the
second has an end. Composites respect the relation, and of a step only the fate of undeclared keys
is left.

A branch of a union may end in a fault that the check with the switch never comes to, which would
turn the whole union down. At closed schemas there are no faults, so there every branch that has an
end is decided.
-/

namespace ApiContract

namespace Report

variable {α β α' β' : Type} {x : Report CheckError α} {y : Report CheckError α'}

/-- The second report accepts where the first one does, if it has an end. -/
def Relaxes (x : Report CheckError α) (y : Report CheckError α') : Prop :=
  x.IsAccepted → y.Ends → y.IsAccepted

theorem Relaxes.refl (x : Report CheckError α) : x.Relaxes x := fun accepted _ => accepted

theorem Relaxes.of_isAccepted (accepted : y.IsAccepted) : x.Relaxes y := fun _ _ => accepted

theorem Relaxes.of_isRefused (refused : x.IsRefused) : x.Relaxes y :=
  fun accepted => absurd refused accepted.not_isRefused

theorem Relaxes.bind {f : α → Report CheckError β} {g : α' → Report CheckError β'}
    (first : x.Relaxes y) (rest : ∀ a a', (f a).Relaxes (g a')) : (x >>= f).Relaxes (y >>= g) := by
  intro accepted ends
  obtain ⟨a, passed, accepted⟩ := isAccepted_bind_iff.mp accepted
  obtain ⟨a', passed'⟩ := first ⟨a, passed⟩ ends.of_bind
  exact isAccepted_bind_iff.mpr ⟨a', passed', rest a a' accepted (ends.of_bind_eq_ok passed')⟩

theorem Relaxes.mapM {inputs : List α} {f : α → Report CheckError β}
    {g : α → Report CheckError β'} (each : ∀ a ∈ inputs, (f a).Relaxes (g a)) :
    (inputs.mapM f).Relaxes (inputs.mapM g) := by
  induction inputs with
  | nil => exact .of_isAccepted ⟨[], rfl⟩
  | cons a rest ih =>
    rw [List.mapM_cons, List.mapM_cons]
    refine (each a List.mem_cons_self).bind fun _ _ => ?_
    refine (ih fun b later => each b (List.mem_cons_of_mem a later)).bind fun _ bs => ?_
    exact .of_isAccepted ⟨_, rfl⟩

end Report

namespace Validator

open Report

variable {d lax : Validator} {check check' inside inside' across across' : Check} {path : Path}
  {v : Value} {schema : Schema} {parent : Parent} {branches : List Schema}

theorem checkArray_relaxes {rule : ArrayRule Schema}
    (inner : ∀ segment w, (check (path.child segment) w rule.items .array).Relaxes
      (check' (path.child segment) w rule.items .array)) :
    (checkArray check path v rule).Relaxes (checkArray check' path v rule) := by
  unfold checkArray
  cases v with
  | array items =>
    cases violation : countViolation? rule items.length with
    | some reason =>
      simp only [violation]
      exact .of_isRefused isRefused_refuse
    | none =>
      simp only [violation]
      refine Relaxes.bind (.mapM fun e _ => inner (.index e.2) e.1) fun _ results => ?_
      exact .of_isAccepted ⟨.array results, rfl⟩
  | _ => exact .of_isRefused isRefused_refuse

theorem checkProperty_relaxes {required : List String} {members : Entries Value} {p : Declared}
    (inner : ∀ w, (check (path.child (.key p.name)) w p.node .object).Relaxes
      (check' (path.child (.key p.name)) w p.node .object)) :
    (checkProperty check path required members p).Relaxes
      (checkProperty check' path required members p) := by
  unfold checkProperty
  cases members.get? p.name with
  | some w => exact (inner w).bind fun _ result => .of_isAccepted ⟨some (p.name, result), rfl⟩
  | none => exact .refl _

/-- Undeclared keys without a schema turn nothing down, and those with one have the same fate under
all switches. -/
theorem checkUndeclared_relaxes {rule : ObjectRule Schema} {undeclared : List (String × Value)}
    (lenient : lax.switches.rejectUndeclared = false)
    (inner : ∀ key w node, node ∈ rule.additional.nodes →
      (check (path.child (.key key)) w node .object).Relaxes
        (check' (path.child (.key key)) w node .object)) :
    (d.checkUndeclared check path v parent rule undeclared).Relaxes
      (lax.checkUndeclared check' path v parent rule undeclared) := by
  by_cases noSchema : ∀ node, rule.additional ≠ .schema node
  · exact .of_isAccepted (isAccepted_checkUndeclared_of_lenient lenient noSchema)
  · -- A schema for undeclared keys is used whatever the switches say.
    push Not at noSchema
    obtain ⟨node, additional⟩ := noSchema
    have isNode : node ∈ rule.additional.nodes := by simp [additional, Additional.nodes]
    unfold checkUndeclared
    cases undeclared with
    | nil => exact .of_isAccepted ⟨[], by simp [Additional.fate]⟩
    | cons e rest =>
      simp only [additional, Additional.fate, List.map_cons, reduceCtorEq, if_false]
      refine Relaxes.mapM fun e _ => (inner e.1 e.2 node isNode).bind fun _ result => ?_
      exact .of_isAccepted ⟨(e.1, result), rfl⟩

theorem checkObject_relaxes {rule : ObjectRule Schema} (document : lax.document = d.document)
    (lenient : lax.switches.rejectUndeclared = false)
    (inner : ∀ segment w node, node ∈ (Shape.object rule).nodes →
      (check (path.child segment) w node .object).Relaxes
        (check' (path.child segment) w node .object)) :
    (d.checkObject check path v rule parent).Relaxes
      (lax.checkObject check' path v rule parent) := by
  unfold checkObject
  cases v with
  | object members =>
    rw [document]
    cases resolved : declared d.document rule.properties with
    | error cause =>
      rintro ⟨w, accepted⟩
      simp [Except.mapError] at accepted
    | ok ps =>
      simp only [Except.mapError, ofExcept_ok, pure_bind_report]
      refine Relaxes.bind (.mapM fun p isDeclared => ?_) fun _ entries => ?_
      · have isProperty := (mem_properties_of_mem_declared resolved isDeclared).1
        exact checkProperty_relaxes fun w =>
          inner _ w p.node (ObjectRule.mem_nodes_of_property isProperty)
      · refine Relaxes.bind (checkUndeclared_relaxes lenient ?_) fun _ extra => ?_
        · exact fun key w node inRule => inner (.key key) w node (List.mem_append_right _ inRule)
        · exact .of_isAccepted ⟨.object (entries.filterMap id ++ extra), rfl⟩
  | _ => exact .of_isRefused isRefused_refuse

theorem checkAllOf_relaxes
    (branch : ∀ node ∈ branches,
      (check path v node .allOf).Relaxes (check' path v node .allOf)) :
    (checkAllOf check path v branches).Relaxes (checkAllOf check' path v branches) := by
  unfold checkAllOf
  refine (Relaxes.mapM branch).bind fun _ results => ?_
  cases results with
  | nil => exact .of_isAccepted ⟨v, rfl⟩
  | cons first rest => exact .of_isAccepted ⟨rest.foldl merge first, rfl⟩

/-- The branches that the first union turns down may pass in the second, as long as each of them is
decided. -/
theorem checkOneOf_relaxes
    (faultless : ∀ node ∈ branches, ∀ cause,
      (check' path v node .oneOf).outcome ≠ .error (.schema cause))
    (branch : ∀ node ∈ branches,
      (check path v node .oneOf).Relaxes (check' path v node .oneOf)) :
    (checkOneOf check path v branches).Relaxes (checkOneOf check' path v branches) := by
  intro accepted ends
  obtain ⟨decided, node, isBranch, passed⟩ := isAccepted_checkOneOf_iff.mp accepted
  have decided' : ∀ node ∈ branches, (check' path v node .oneOf).IsDecided := by
    refine isAccepted_tries_iff.mp (Relaxes.mapM (fun e isEntry _ tryEnds => ?_)
      (isAccepted_tries_iff.mpr decided) ends.of_bind)
    have isBranch : e.1 ∈ branches := List.fst_mem_of_mem_zipIdx isEntry
    have branchEnds : (check' path v e.1 .oneOf).Ends := ends_of_tryBranch tryEnds
    exact isAccepted_tryBranch_iff.mpr (branchEnds.isDecided (faultless e.1 isBranch))
  refine isAccepted_checkOneOf_iff.mpr ⟨decided', node, isBranch, ?_⟩
  exact branch node isBranch passed (decided' node isBranch).ends

/-- At closed schemas the second check meets no fault, and accepts what the first one does if it
has an end. -/
structure Eases (document : Document) (check check' : Check) : Prop where
  faultless : Faultless document check'
  relaxes : ∀ path v schema parent, document.Closed schema →
    (check path v schema parent).Relaxes (check' path v schema parent)

theorem eases_step (document : lax.document = d.document)
    (payload : lax.typedPayload = d.typedPayload)
    (lenient : lax.switches.rejectUndeclared = false)
    (checked : d.document.checkReferences = .ok ())
    (insideEases : Eases d.document inside inside')
    (acrossEases : Eases d.document across across') :
    Eases d.document (d.step inside across) (lax.step inside' across') where
  faultless := by
    rw [← document] at checked insideEases acrossEases ⊢
    exact faultless_step checked insideEases.faultless acrossEases.faultless
  relaxes path v schema parent closed := by
    unfold step
    rw [document]
    obtain ⟨target, resolved⟩ := closed.resolves
    have child {node : Schema} (inShape : node ∈ target.shape.nodes) : d.document.Closed node :=
      (closed.of_resolve_eq_ok checked resolved).child inShape
    simp only [resolved, Except.mapError, ofExcept_ok, pure_bind_report]
    split
    · exact .refl _
    cases shape : target.shape with
    | array rule =>
      exact checkArray_relaxes fun segment w =>
        insideEases.relaxes _ w _ _ (child (by simp [shape, Shape.nodes]))
    | object rule =>
      exact checkObject_relaxes document lenient fun segment w node inRule =>
        insideEases.relaxes _ w node _ (child (by rwa [shape]))
    | allOf branches =>
      exact checkAllOf_relaxes fun node isBranch =>
        acrossEases.relaxes path v node _ (child (by rwa [shape]))
    | oneOf branches =>
      refine checkOneOf_relaxes (fun node isBranch cause => ?_) fun node isBranch => ?_
      · exact acrossEases.faultless path v node _ cause (child (by rwa [shape]))
      · exact acrossEases.relaxes path v node _ (child (by rwa [shape]))
    | number rule =>
      simp only [checkNumber, readsText, payload]
      exact .refl _
    | _ => exact .refl _

theorem validate_relaxes (logs : Bool) (checked : d.document.checkReferences = .ok ())
    (closed : d.document.Closed schema) :
    (d.validate path v schema parent).Relaxes
      ((d.switched logs false).validate path v schema parent) := by
  have base : Eases d.document giveUp giveUp :=
    ⟨faultless_giveUp d.document, fun _ _ _ _ _ => .refl _⟩
  have eases := checkWithin_induction₂ (R := Eases d.document) d (d.switched logs false) base
    (fun _ _ _ _ => eases_step rfl rfl rfl checked) (d.nodeCount schema) (v.depth + 1)
  exact eases.relaxes path v schema parent closed

/-- The switch that rejects undeclared keys turns acceptances into refusals and nothing else: what
is accepted with it is accepted without it, and what is refused without it is refused with it. -/
theorem rejecting_accepts_no_more (logs : Bool) (checked : d.document.checkReferences = .ok ())
    (closed : d.document.Closed schema)
    (ends : ((d.switched logs true).validate path v schema parent).Ends)
    (lenientEnds : ((d.switched logs false).validate path v schema parent).Ends) :
    (((d.switched logs true).validate path v schema parent).IsAccepted →
        ((d.switched logs false).validate path v schema parent).IsAccepted) ∧
      (((d.switched logs false).validate path v schema parent).IsRefused →
        ((d.switched logs true).validate path v schema parent).IsRefused) := by
  have accepts (accepted : ((d.switched logs true).validate path v schema parent).IsAccepted) :
      ((d.switched logs false).validate path v schema parent).IsAccepted :=
    validate_relaxes (d := d.switched logs true) logs checked closed accepted lenientEnds
  refine ⟨accepts, fun refused => ?_⟩
  have faultless (cause : SchemaFault) :
      ((d.switched logs true).validate path v schema parent).outcome ≠ .error (.schema cause) :=
    validate_ne_schema (d := d.switched logs true) checked closed path v parent cause
  rcases ends.isDecided faultless with accepted | refusedToo
  · exact absurd refused (accepts accepted).not_isRefused
  · exact refusedToo

/-- A kind, and a flag in one of two forms; the second form keeps all keys. -/
def ledgerEntry : Schema :=
  .allOf [.object [("kind", .string)] ["kind"],
    .oneOf [.object [("flag", .boolean)] [],
      (Schema.object [("flag", .string)] []).withAdditional (.allowed true)]]

def ledger : Schema := (Schema.object [] []).withAdditional (.schema (.reference "Entry"))

def ledgerDocument : Document := { schemas := [("Entry", ledgerEntry), ("Ledger", ledger)] }

def ledgerValue : Value :=
  .object [("first", .object [("kind", .string "note"), ("flag", .string "1")])]

theorem ledgerDocument_checkReferences : ledgerDocument.checkReferences = .ok () := by
  refine Document.checkReferences_eq_ok_iff.mpr ?_
  rintro node ⟨named, isNamed, occurs⟩ reference
  have reached : node ∈ [ledgerEntry, ledger, .object [("kind", .string)] ["kind"],
      .oneOf [.object [("flag", .boolean)] [],
        (Schema.object [("flag", .string)] []).withAdditional (.allowed true)],
      .object [("flag", .boolean)] [],
      (Schema.object [("flag", .string)] []).withAdditional (.allowed true),
      .string, .boolean, .reference "Entry"] := by
    refine Document.mem_of_reaches (d := ledgerDocument) ?_ ?_ ?_
      (Document.reaches_of_occurs occurs)
    · simp [ledgerDocument, Entries.values]
    · simp [Schema.children, ledgerEntry, ledger, Schema.object, Schema.string, Schema.boolean,
        Schema.allOf, Schema.oneOf, Schema.reference, Schema.withAdditional, Schema.plain,
        Shape.nodes, Additional.nodes, Entries.values, Entries.ofList, Entries.extend,
        Entries.insert]
    · have root : named = ledgerEntry ∨ named = ledger := by
        simpa [ledgerDocument, Entries.values] using isNamed
      rcases root with rfl | rfl <;> simp
  simp only [List.mem_cons, List.not_mem_nil, or_false] at reached
  rcases reached with rfl | rfl | rfl | rfl | rfl | rfl | rfl | rfl | rfl <;>
    exact ⟨_, rfl⟩

def ledgerCheck (rejects : Bool) : Validation :=
  (switched { document := ledgerDocument } true rejects).validate { root := "q" } ledgerValue
    (.reference "Ledger") .unknown

/-- The two checks select different forms of the flag. -/
theorem ledger_accepted_without_rejecting :
    ledgerDocument.checkReferences = .ok () ∧ ledgerDocument.Closed (.reference "Ledger") ∧
      (ledgerCheck true).outcome = .ok ledgerValue ∧
      (ledgerCheck false).outcome = .ok (.object [("first",
        .object [("kind", .string "note"), ("flag", .bool true)])]) ∧
      (ledgerCheck false).IsAccepted := by
  have closed : ledgerDocument.Closed (.reference "Ledger") :=
    .of_isReference ⟨"Ledger", rfl⟩ ⟨ledger, rfl⟩
  have strict : (ledgerCheck true).outcome = .ok ledgerValue :=
    (checkWithin_below_validate 4 3).outcome_eq_ok rfl
  have lenient : (ledgerCheck false).outcome = .ok (.object [("first",
      .object [("kind", .string "note"), ("flag", .bool true)])]) :=
    (checkWithin_below_validate 4 3).outcome_eq_ok rfl
  have ends : (ledgerCheck true).Ends := by simp [Ends, strict]
  have lenientEnds : (ledgerCheck false).Ends := by simp [Ends, lenient]
  refine ⟨ledgerDocument_checkReferences, closed, strict, lenient, ?_⟩
  exact (rejecting_accepts_no_more (d := { document := ledgerDocument }) true
    ledgerDocument_checkReferences closed ends lenientEnds).1 ⟨ledgerValue, strict⟩

end Validator

end ApiContract

import ApiContract.Proofs.Document.References
import ApiContract.Proofs.Validation.Keys
import ApiContract.Proofs.Value.Place
import ApiContract.Validation.Engine

/-!
Checks within different bounds.

A check that does not run out of its bounds is not changed by larger ones (`Report.Below`). Down in
the value the bound is its depth, so any two numbers of levels above the depth agree.
-/

namespace ApiContract

namespace Report

variable {α β : Type} {x y z : Report CheckError α}

/-- The computation stays within its bounds. -/
def Ends (x : Report CheckError α) : Prop := x.outcome ≠ .error .endless

/-- The second report is the first one wherever the first one stays within its bounds. -/
def Below (x y : Report CheckError α) : Prop := x.Ends → y = x

theorem Below.refl (x : Report CheckError α) : x.Below x := fun _ => rfl

theorem Below.trans (low : x.Below y) (high : y.Below z) : x.Below z := by
  intro ends
  have same : y = x := low ends
  rw [same] at high
  exact high ends

theorem Ends.of_below (ends : x.Ends) (below : x.Below y) : y.Ends := by
  rw [below ends]
  exact ends

theorem Ends.of_bind {f : α → Report CheckError β} (ends : (x >>= f).Ends) : x.Ends := by
  intro endless
  exact ends (outcome_bind_eq_error.mpr (.inl endless))

theorem Ends.of_bind_eq_ok {f : α → Report CheckError β} {a : α} (ends : (x >>= f).Ends)
    (first : x.outcome = .ok a) : (f a).Ends := by
  intro endless
  exact ends (outcome_bind_eq_error.mpr (.inr ⟨a, first, endless⟩))

theorem Below.bind {f g : α → Report CheckError β} (first : x.Below y)
    (rest : ∀ a, x.outcome = .ok a → (f a).Below (g a)) : (x >>= f).Below (y >>= g) := by
  intro ends
  rw [first ends.of_bind, bind_def, bind_def, Report.bind, Report.bind]
  cases outcome : x.outcome with
  | ok a => simp only [rest a outcome (ends.of_bind_eq_ok outcome)]
  | error e => rfl

theorem Below.mapM {inputs : List α} {f g : α → Report CheckError β}
    (each : ∀ a ∈ inputs, (f a).Below (g a)) : (inputs.mapM f).Below (inputs.mapM g) := by
  induction inputs with
  | nil => exact .refl _
  | cons a rest ih =>
    rw [List.mapM_cons, List.mapM_cons]
    refine (each a List.mem_cons_self).bind fun _ _ => ?_
    exact (ih fun b membership => each b (List.mem_cons_of_mem a membership)).bind
      fun _ _ => .refl _

theorem Below.outcome_eq_ok {a : α} (below : x.Below y) (accepted : x.outcome = .ok a) :
    y.outcome = .ok a := by
  have ends : x.Ends := by simp [Ends, accepted]
  rw [below ends, accepted]

theorem Below.outcome_eq (low : x.Below y) (high : y.Below x) : x.outcome = y.outcome := by
  by_cases ends : x.Ends
  · rw [low ends]
  by_cases otherEnds : y.Ends
  · rw [high otherEnds]
  rw [not_not.mp ends, not_not.mp otherEnds]

end Report

namespace Validator

open Report

variable {d : Validator} {check check' inside inside' across across' : Check} {path : Path}
  {v : Value} {schema : Schema} {parent : Parent}

theorem checkArray_below {rule : ArrayRule Schema}
    (inner : ∀ segment w, v.Member segment w →
      (check (path.child segment) w rule.items .array).Below
        (check' (path.child segment) w rule.items .array)) :
    (checkArray check path v rule).Below (checkArray check' path v rule) := by
  unfold checkArray
  cases v with
  | array items =>
    cases violation : countViolation? rule items.length with
    | some reason => simp only [violation, Below.refl]
    | none =>
      simp only [violation]
      refine Below.bind (Below.mapM ?_) fun _ _ => .refl _
      rintro ⟨item, i⟩ membership
      exact inner (.index i) item (.item (List.mk_mem_zipIdx_iff_getElem?.mp membership))
  | _ => exact .refl _

theorem checkProperty_below {required : List String} {members : Entries Value} {p : Declared}
    (inner : ∀ w, (p.name, w) ∈ members →
      (check (path.child (.key p.name)) w p.node .object).Below
        (check' (path.child (.key p.name)) w p.node .object)) :
    (checkProperty check path required members p).Below
      (checkProperty check' path required members p) := by
  unfold checkProperty
  cases found : members.get? p.name with
  | some w => exact (inner w (Entries.mem_of_get?_eq_some found)).bind fun _ _ => .refl _
  | none => exact .refl _

theorem checkUndeclared_below {rule : ObjectRule Schema} {undeclared : List (String × Value)}
    (inner : ∀ key w node, (key, w) ∈ undeclared → node ∈ rule.additional.nodes →
      (check (path.child (.key key)) w node .object).Below
        (check' (path.child (.key key)) w node .object)) :
    (d.checkUndeclared check path v parent rule undeclared).Below
      (d.checkUndeclared check' path v parent rule undeclared) := by
  unfold checkUndeclared
  cases fate : rule.additional.fate d.switches parent (undeclared.map Prod.fst) with
  | check node =>
    simp only [fate]
    refine Below.mapM ?_
    rintro ⟨key, w⟩ membership
    have isNode := Additional.mem_nodes_of_fate_eq_check fate
    exact (inner key w node membership isNode).bind fun _ _ => .refl _
  | _ => simp only [fate, Below.refl]

theorem checkObject_below {rule : ObjectRule Schema}
    (inner : ∀ segment w node, v.Member segment w → node ∈ (Shape.object rule).nodes →
      (check (path.child segment) w node .object).Below
        (check' (path.child segment) w node .object)) :
    (d.checkObject check path v rule parent).Below
      (d.checkObject check' path v rule parent) := by
  unfold checkObject
  cases v with
  | object members =>
    refine (Below.refl _).bind fun ps resolved => ?_
    rw [outcome_ofExcept, Outcome.mapError_eq_ok] at resolved
    refine Below.bind (Below.mapM fun p membership => ?_) fun _ _ => ?_
    · have isDeclared := (mem_properties_of_mem_declared resolved membership).1
      refine checkProperty_below fun w found => inner _ w p.node (.entry found) ?_
      exact ObjectRule.mem_nodes_of_property isDeclared
    · refine (checkUndeclared_below fun key w node extra inRule => ?_).bind fun _ _ => .refl _
      exact inner _ w node (.entry (List.mem_filter.mp extra).1) (List.mem_append_right _ inRule)
  | _ => exact .refl _

theorem checkAllOf_below {branches : List Schema}
    (branch : ∀ node ∈ branches, (check path v node .allOf).Below (check' path v node .allOf)) :
    (checkAllOf check path v branches).Below (checkAllOf check' path v branches) := by
  unfold checkAllOf
  exact (Below.mapM branch).bind fun _ _ => .refl _

theorem ends_of_tryBranch {node : Schema} {index : Nat}
    (ends : (tryBranch check path v node index).Ends) : (check path v node .oneOf).Ends := by
  intro endless
  apply ends
  simp [tryBranch, outcome_bind_eq, endless]
  rfl

theorem tryBranch_below {node : Schema} {index : Nat}
    (branch : (check path v node .oneOf).Below (check' path v node .oneOf)) :
    (tryBranch check path v node index).Below (tryBranch check' path v node index) := by
  by_cases ends : (check path v node .oneOf).Ends
  · unfold tryBranch
    rw [branch ends]
    exact .refl _
  · exact fun tried => absurd (ends_of_tryBranch tried) ends

theorem checkOneOf_below {branches : List Schema}
    (branch : ∀ node ∈ branches, (check path v node .oneOf).Below (check' path v node .oneOf)) :
    (checkOneOf check path v branches).Below (checkOneOf check' path v branches) := by
  unfold checkOneOf
  refine Below.bind (Below.mapM ?_) fun _ _ => .refl _
  rintro ⟨node, i⟩ membership
  exact tryBranch_below (branch node (List.fst_mem_of_mem_zipIdx membership))

/-- A step depends on the check inside only at the members of the value and at the nodes that the
schema leads to, and on the check across only at the value and at branches of the schema. -/
theorem step_below
    (inner : ∀ segment w node parent, v.Member segment w → d.document.Leads schema node →
      (inside (path.child segment) w node parent).Below
        (inside' (path.child segment) w node parent))
    (branch : ∀ node parent, d.document.Branch schema node →
      (across path v node parent).Below (across' path v node parent)) :
    (d.step inside across path v schema parent).Below
      (d.step inside' across' path v schema parent) := by
  unfold step
  refine (Below.refl _).bind fun target resolved => ?_
  rw [outcome_ofExcept, Outcome.mapError_eq_ok] at resolved
  have leads {node : Schema} (inShape : node ∈ target.shape.nodes) :
      d.document.Leads schema node :=
    ⟨target, resolved, inShape⟩
  split
  · exact .refl _
  cases shape : target.shape with
  | array rule =>
    exact checkArray_below fun segment w member =>
      inner segment w _ _ member (leads (by simp [shape, Shape.nodes]))
  | object rule =>
    exact checkObject_below fun segment w node member inRule =>
      inner segment w node _ member (leads (by rwa [shape]))
  | allOf branches =>
    exact checkAllOf_below fun node isBranch =>
      branch node _ (.intersected ⟨target, resolved, shape⟩ isBranch)
  | oneOf branches =>
    exact checkOneOf_below fun node isBranch =>
      branch node _ (.alternative ⟨target, resolved, shape⟩ isBranch)
  | _ => exact .refl _

/-- A step depends on the check across or on the parent, but not on both. -/
theorem step_ignores (d : Validator) (inside : Check) (path : Path) (v : Value) (schema : Schema) :
    (∀ across across' parent,
        d.step inside across path v schema parent = d.step inside across' path v schema parent) ∨
      ∀ across parent parent',
        d.step inside across path v schema parent = d.step inside across path v schema parent' := by
  unfold step
  cases d.document.resolve schema with
  | error cause => exact .inl fun _ _ _ => rfl
  | ok target =>
    cases shape : target.shape with
    | allOf branches => exact .inr fun _ _ _ => by simp [Except.mapError, shape]
    | oneOf branches => exact .inr fun _ _ _ => by simp [Except.mapError, shape]
    | _ => exact .inl fun _ _ _ => by simp [Except.mapError, shape]

theorem giveUp_below {other : Validation} : (giveUp path v schema parent).Below other := by
  intro ends
  exact absurd rfl ends

/-- On schemas that are closed under leading on, a longer chain over a check inside that reaches
further is not below its bounds. -/
theorem chain_below {S : Schema → Prop}
    (closed : ∀ s node, S s → d.document.Leads s node → S node)
    (inner : ∀ segment w node parent, v.Member segment w → S node →
      (inside (path.child segment) w node parent).Below
        (inside' (path.child segment) w node parent))
    {links more : Nat} (order : links ≤ more) (inScope : S schema) :
    (d.chain inside links path v schema parent).Below
      (d.chain inside' more path v schema parent) := by
  induction links generalizing more schema parent with
  | zero => exact giveUp_below
  | succ links ih =>
    cases more with
    | zero => exact absurd order (Nat.not_succ_le_zero links)
    | succ more =>
      refine step_below (fun segment w node parent member leads => ?_) fun node parent branch => ?_
      · exact inner segment w node parent member (closed _ _ inScope leads)
      · exact ih (Nat.le_of_succ_le_succ order) (closed _ _ inScope branch.leads)

theorem chain_below_of_le {links more : Nat} (order : links ≤ more) :
    (d.chain inside links path v schema parent).Below
      (d.chain inside more path v schema parent) :=
  chain_below (S := fun _ => True) (fun _ _ _ _ => trivial) (fun _ _ _ _ _ _ => .refl _) order
    trivial

end Validator

end ApiContract

import ApiContract.Proofs.Validation.Bounds
import ApiContract.Proofs.Validation.Origin

/-!
The recursion equation of a check.

A chain of branches over a fixed check inside is `Late` at a schema for a bound if one link more
lets it stay within its bounds. No schema is late for two bounds, and a schema that is late for a
bound leads to one that is late for the bound before, so along a chain every schema stands once. A
chain with as many links as there are nodes is therefore as good as a longer one, and `validate`
is a step of itself.
-/

namespace ApiContract.Validator

open Report

variable {d : Validator} {inside : Check} {path : Path} {v : Value} {schema node : Schema}
  {parent : Parent} {links : Nat}

/-- With one link more, and not before, the chain stays within its bounds. -/
def Late (d : Validator) (inside : Check) (path : Path) (v : Value) (links : Nat)
    (schema : Schema) : Prop :=
  ∃ parent, (d.chain inside (links + 1) path v schema parent).Ends ∧
    ¬(d.chain inside links path v schema parent).Ends

theorem Late.leads (late : d.Late inside path v (links + 1) schema) :
    ∃ node, d.document.Leads schema node ∧ d.Late inside path v links node := by
  obtain ⟨parent, ends, endless⟩ := late
  by_contra none
  push Not at none
  have branch (node : Schema) (parent : Parent) (leads : d.document.Leads schema node) :
      (d.chain inside (links + 1) path v node parent).Below
        (d.chain inside links path v node parent) := by
    intro nodeEnds
    have early : (d.chain inside links path v node parent).Ends := by
      by_contra nodeEndless
      exact none node leads ⟨parent, nodeEnds, nodeEndless⟩
    exact (chain_below_of_le links.le_succ early).symm
  have below : (d.chain inside (links + 1 + 1) path v schema parent).Below
      (d.chain inside (links + 1) path v schema parent) :=
    step_below (fun _ _ _ _ _ _ => .refl _) fun node parent isBranch =>
      branch node parent isBranch.leads
  exact endless (ends.of_below below)

theorem Late.not_lt {more : Nat} (late : d.Late inside path v links schema)
    (later : d.Late inside path v more schema) : ¬links < more := by
  intro order
  obtain ⟨parent, ends, -⟩ := late
  obtain ⟨other, otherEnds, otherEndless⟩ := later
  cases more with
  | zero => exact Nat.not_lt_zero links order
  | succ more =>
    apply otherEndless
    -- The two runs may have different parents, but where the parent counts the chain does not.
    rcases step_ignores d inside path v schema with ignoresAcross | ignoresParent
    · have same := ignoresAcross (d.chain inside (more + 1)) (d.chain inside more) other
      exact (same ▸ otherEnds : (d.step inside (d.chain inside more) path v schema other).Ends)
    · have moreEnds : (d.chain inside (more + 1) path v schema parent).Ends :=
        ends.of_below (chain_below_of_le order)
      exact (ignoresParent (d.chain inside more) parent other ▸ moreEnds :
        (d.step inside (d.chain inside more) path v schema other).Ends)

theorem Late.unique {more : Nat} (late : d.Late inside path v links schema)
    (other : d.Late inside path v more schema) : links = more :=
  Nat.le_antisymm (Nat.le_of_not_lt (other.not_lt late)) (Nat.le_of_not_lt (late.not_lt other))

/-- A late schema starts a list of different ones, one for every bound. -/
theorem Late.exists_nodup {S : Schema → Prop}
    (closed : ∀ s node, S s → d.document.Leads s node → S node)
    (late : d.Late inside path v links schema) (inScope : S schema) :
    ∃ nodes : List Schema, nodes.length = links + 1 ∧ nodes.Nodup ∧
      ∀ node ∈ nodes, S node ∧ ∃ bound ≤ links, d.Late inside path v bound node := by
  induction links generalizing schema with
  | zero =>
    refine ⟨[schema], rfl, by simp, ?_⟩
    intro node membership
    obtain rfl := List.mem_singleton.mp membership
    exact ⟨inScope, 0, Nat.le_refl 0, late⟩
  | succ links ih =>
    obtain ⟨next, leads, nextLate⟩ := late.leads
    obtain ⟨nodes, length, distinct, members⟩ := ih nextLate (closed _ _ inScope leads)
    have longer : (schema :: nodes).length = links + 1 + 1 := by rw [List.length_cons, length]
    refine ⟨schema :: nodes, longer, List.nodup_cons.mpr ⟨?_, distinct⟩, ?_⟩
    · intro again
      obtain ⟨-, bound, order, earlier⟩ := members schema again
      have same : links + 1 = bound := late.unique earlier
      omega
    · intro node membership
      rcases List.mem_cons.mp membership with rfl | later
      · exact ⟨inScope, links + 1, Nat.le_refl _, late⟩
      · obtain ⟨inScope, bound, order, late⟩ := members node later
        exact ⟨inScope, bound, Nat.le_succ_of_le order, late⟩

theorem Late.lt_length {scope : List Schema}
    (closed : ∀ s node, s ∈ scope → d.document.Leads s node → node ∈ scope)
    (late : d.Late inside path v links schema) (inScope : schema ∈ scope) :
    links < scope.length := by
  obtain ⟨nodes, length, distinct, members⟩ := late.exists_nodup closed inScope
  have included : nodes ⊆ scope := fun node membership => (members node membership).1
  have bound := distinct.length_le_of_subset included
  omega

/-- Links beyond the number of nodes add nothing to a chain. -/
theorem chain_below_length {scope : List Schema}
    (closed : ∀ s node, s ∈ scope → d.document.Leads s node → node ∈ scope)
    (inScope : schema ∈ scope) (links : Nat) :
    (d.chain inside links path v schema parent).Below
      (d.chain inside scope.length path v schema parent) := by
  rcases Nat.le_total links scope.length with order | order
  · exact chain_below_of_le order
  induction links, order using Nat.le_induction with
  | base => exact .refl _
  | succ links order ih =>
    refine Below.trans ?_ ih
    intro ends
    have early : (d.chain inside links path v schema parent).Ends := by
      by_contra endless
      have late : d.Late inside path v links schema := ⟨parent, ends, endless⟩
      have bound := late.lt_length closed inScope
      omega
    exact (chain_below_of_le links.le_succ early).symm

theorem mem_scope_iff : node ∈ d.scope schema ↔ d.document.Occurs node ∨ node.Occurs schema := by
  simp [scope, Document.Occurs, Schema.mem_nodes_iff]

theorem self_mem_scope (d : Validator) (schema : Schema) : schema ∈ d.scope schema :=
  mem_scope_iff.mpr (.inr .here)

theorem mem_scope_of_reaches {s : Schema} (inScope : s ∈ d.scope schema)
    (reaches : d.document.Reaches s node) : node ∈ d.scope schema := by
  refine Document.mem_of_reaches ?_ ?_ inScope reaches
  · intro named isNamed
    exact mem_scope_iff.mpr (.inl ⟨named, isNamed, .here⟩)
  · intro s inScope child isChild
    have occursIn : child.Occurs s := .child isChild .here
    rcases mem_scope_iff.mp inScope with ⟨named, isNamed, occurs⟩ | occurs
    · exact mem_scope_iff.mpr (.inl ⟨named, isNamed, occursIn.trans occurs⟩)
    · exact mem_scope_iff.mpr (.inr (occursIn.trans occurs))

theorem scope_closed (d : Validator) (schema s node : Schema) (inScope : s ∈ d.scope schema)
    (leads : d.document.Leads s node) : node ∈ d.scope schema :=
  mem_scope_of_reaches inScope (Document.reaches_of_leads leads)

theorem chain_below_nodeCount (inScope : node ∈ d.scope schema) (links : Nat) :
    (d.chain inside links path v node parent).Below
      (d.chain inside (d.nodeCount schema) path v node parent) :=
  chain_below_length (scope_closed d schema) inScope links

/-- Above the depth of the value, and with links for every node in reach, the bounds suffice. -/
theorem checkWithin_below {levels more : Nat} (deep : v.depth < levels) (deeper : v.depth < more)
    (inScope : node ∈ d.scope schema) :
    (d.checkWithin links levels path v node parent).Below
      (d.checkWithin (d.nodeCount schema) more path v node parent) := by
  induction levels generalizing more path v node parent with
  | zero => exact absurd deep (Nat.not_lt_zero _)
  | succ levels ih =>
    cases more with
    | zero => exact absurd deeper (Nat.not_lt_zero _)
    | succ more =>
      have inner : (d.chain (d.checkWithin links levels) links path v node parent).Below
          (d.chain (d.checkWithin (d.nodeCount schema) more) links path v node parent) := by
        refine chain_below (scope_closed d schema) ?_ (Nat.le_refl links) inScope
        intro segment w node parent member inScope
        have lower : w.depth < v.depth := member.depth_lt
        exact ih (by omega) (by omega) inScope
      exact inner.trans (chain_below_nodeCount inScope links)

theorem validate_below_checkWithin {levels : Nat} (deep : v.depth < levels)
    (inScope : node ∈ d.scope schema) :
    (d.validate path v node parent).Below
      (d.checkWithin (d.nodeCount schema) levels path v node parent) :=
  checkWithin_below (Nat.lt_succ_self _) deep inScope

theorem step_validate_below :
    (d.step d.validate d.validate path v schema parent).Below
      (d.validate path v schema parent) := by
  have inScope {node : Schema} (leads : d.document.Leads schema node) : node ∈ d.scope schema :=
    scope_closed d schema schema node (self_mem_scope d schema) leads
  have unrolled : (d.step d.validate d.validate path v schema parent).Below
      (d.chain (d.checkWithin (d.nodeCount schema) v.depth) (d.nodeCount schema + 1) path v schema
        parent) := by
    refine step_below (fun segment w node parent member leads => ?_) fun node parent branch => ?_
    · exact validate_below_checkWithin member.depth_lt (inScope leads)
    · exact validate_below_checkWithin (Nat.lt_succ_self v.depth) (inScope branch.leads)
  exact unrolled.trans (chain_below_nodeCount (self_mem_scope d schema) _)

theorem step_below_validate {across : Check}
    (insideBelow : ∀ path v schema parent,
      (inside path v schema parent).Below (d.validate path v schema parent))
    (acrossBelow : ∀ path v schema parent,
      (across path v schema parent).Below (d.validate path v schema parent)) :
    (d.step inside across path v schema parent).Below (d.validate path v schema parent) := by
  refine Below.trans (step_below ?_ ?_) step_validate_below
  · exact fun _ _ _ _ _ _ => insideBelow _ _ _ _
  · exact fun _ _ _ => acrossBelow _ _ _ _

theorem checkWithin_below_validate (links levels : Nat) :
    (d.checkWithin links levels path v schema parent).Below (d.validate path v schema parent) := by
  refine checkWithin_induction d (P := fun check => ∀ path v schema parent,
    (check path v schema parent).Below (d.validate path v schema parent)) ?_ ?_ links levels path v
    schema parent
  · exact fun _ _ _ _ => giveUp_below
  · intro inside across insideBelow acrossBelow path v schema parent
    exact step_below_validate insideBelow acrossBelow

theorem validate_below_step :
    (d.validate path v schema parent).Below
      (d.step d.validate d.validate path v schema parent) := by
  obtain ⟨links, count⟩ : ∃ links, d.nodeCount schema = links + 1 := by
    have some := List.length_pos_of_mem (self_mem_scope d schema)
    exact Nat.exists_eq_succ_of_ne_zero some.ne'
  have unfolded : d.validate path v schema parent =
      d.step (d.checkWithin (d.nodeCount schema) v.depth)
        (d.chain (d.checkWithin (d.nodeCount schema) v.depth) links) path v schema parent := by
    change d.chain _ (d.nodeCount schema) path v schema parent = _
    generalize d.checkWithin (d.nodeCount schema) v.depth = inside
    rw [count, chain]
  rw [unfolded]
  refine step_below (fun _ _ _ _ _ _ => ?_) fun _ _ _ => ?_
  · exact checkWithin_below_validate _ _
  · have order : links ≤ d.nodeCount schema := by omega
    exact (chain_below_of_le order).trans
      (checkWithin_below_validate (d.nodeCount schema) (v.depth + 1))

/-- A check is a step of itself. -/
theorem validate_eq_step (ends : (d.validate path v schema parent).Ends) :
    d.validate path v schema parent = d.step d.validate d.validate path v schema parent :=
  (validate_below_step ends).symm

theorem validate_outcome :
    (d.validate path v schema parent).outcome =
      (d.step d.validate d.validate path v schema parent).outcome :=
  validate_below_step.outcome_eq step_validate_below

theorem outcome_validate_object {target : Schema} {rule : ObjectRule Schema}
    {members : List (String × Value)} (resolved : d.document.resolve schema = .ok target)
    (shape : target.shape = .object rule) :
    (d.validate path (.object members) schema parent).outcome =
      (d.checkObject d.validate path (.object members) rule parent).outcome := by
  rw [validate_outcome, step]
  simp [resolved, shape, Except.mapError, Value.isNull]

/-- An outcome within some bounds is the outcome. -/
theorem validate_outcome_of_checkWithin {links levels : Nat} {outcome : Except CheckError Value}
    (checked : (d.checkWithin links levels path v schema parent).outcome = outcome)
    (ends : outcome ≠ .error .endless) : (d.validate path v schema parent).outcome = outcome := by
  subst checked
  rw [checkWithin_below_validate links levels ends]

end ApiContract.Validator

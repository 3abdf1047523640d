import ApiContract.Proofs.Report
import ApiContract.Proofs.Schema.Nesting
import Mathlib.Logic.Relation

/-!
References of a document.

The check after loading looks at every node that occurs in a document (`checkReferences_eq_ok_iff`).
What a reference resolves to is never a reference and was reached along `Step`, so in a checked
document the schemas whose references resolve are closed under going inside and under resolution.
-/

namespace ApiContract.Document

/-- A node of one of the named schemas. -/
def Occurs (d : Document) (node : Schema) : Prop :=
  ∃ named ∈ Entries.values d.schemas, node.Occurs named

/-- The chain of references from a node ends. -/
def Resolves (d : Document) (node : Schema) : Prop := ∃ target, d.resolve node = .ok target

/-- Every reference in the schema resolves. -/
def Closed (d : Document) (s : Schema) : Prop :=
  ∀ node, node.Occurs s → node.IsReference → d.Resolves node

/-- A check against a schema goes on at the nodes directly inside what the schema resolves to. -/
def Leads (d : Document) (s node : Schema) : Prop :=
  ∃ target, d.resolve s = .ok target ∧ node ∈ target.children

/-- The schema has a shape at the end of its references. -/
def Shapes (d : Document) (s : Schema) (shape : Shape Schema) : Prop :=
  ∃ target, d.resolve s = .ok target ∧ target.shape = shape

/-- A branch of the intersection or of the union that the schema resolves to. -/
inductive Branch (d : Document) (s node : Schema) : Prop
  | intersected {branches} : d.Shapes s (.allOf branches) → node ∈ branches → Branch d s node
  | alternative {branches} : d.Shapes s (.oneOf branches) → node ∈ branches → Branch d s node

/-- One step from a schema to a node directly inside it or along its reference. -/
inductive Link (d : Document) (s : Schema) : Schema → Prop
  | nested {node} : node.Nested s → Link d s node
  | reference {node} : d.Step s node → Link d s node

/-- A node can be reached from a schema through nesting and references. -/
def Reaches (d : Document) : Schema → Schema → Prop := Relation.ReflTransGen d.Link

variable {d : Document}

theorem checkPending_push (pending : Array Schema) (node : Schema) :
    d.checkPending (pending.push node) = (do
      d.checkNode node
      d.checkPending (pending ++ node.children)) := by
  rw [checkPending]
  split
  · next none => simp at none
  · next last found =>
    obtain rfl : node = last := by simpa using found
    rw [Array.pop_push]

/-- The check takes up the pending nodes from behind, each with what is inside it. -/
theorem checkPending_eq (pending : Array Schema) :
    d.checkPending pending = (pending.toList.reverse.flatMap Schema.walk).forM d.checkNode := by
  induction pending using checkPending.induct with
  | case1 pending none =>
    obtain rfl := Array.back?_eq_none_iff.mp none
    rw [checkPending]
    rfl
  | case2 pending node last ih =>
    obtain ⟨rest, rfl⟩ := Array.back?_eq_some_iff.mp last
    have taken : ((rest.push node).toList.reverse.flatMap Schema.walk) =
        node :: ((rest ++ node.children).toList.reverse.flatMap Schema.walk) := by
      simp [Schema.walk_eq_cons node]
    rw [Array.pop_push] at ih
    rw [checkPending_push, ih, taken, List.forM_eq_forM, List.forM_cons]

theorem checkReferences_eq :
    d.checkReferences =
      ((Entries.values d.schemas).reverse.flatMap Schema.walk).forM d.checkNode := by
  rw [checkReferences, checkPending_eq]

theorem checkReferences_empty : ({} : Document).checkReferences = .ok () := by
  rw [checkReferences_eq]
  rfl

theorem checkNode_eq_ok_iff {node : Schema} :
    d.checkNode node = .ok () ↔ (node.IsReference → d.Resolves node) := by
  unfold checkNode Schema.IsReference Resolves
  cases shape : node.shape with
  | ref target => cases d.resolve node <;> simp [Except.map]
  | _ => simp

/-- A document passes the check when every reference that occurs in it resolves. -/
theorem checkReferences_eq_ok_iff :
    d.checkReferences = .ok () ↔ ∀ node, d.Occurs node → node.IsReference → d.Resolves node := by
  rw [checkReferences_eq, Outcome.forM_eq_ok]
  simp only [checkNode_eq_ok_iff, List.mem_flatMap, List.mem_reverse, Schema.mem_walk_iff, Occurs]

theorem follow_of_not_isReference {node : Schema} (concrete : ¬node.IsReference) (hops : Nat) :
    d.follow hops node = .ok node := by
  unfold follow
  cases shape : node.shape with
  | ref target => exact absurd ⟨target, shape⟩ concrete
  | _ => rfl

theorem resolve_of_not_isReference {node : Schema} (concrete : ¬node.IsReference) :
    d.resolve node = .ok node :=
  follow_of_not_isReference concrete _

theorem steps_of_follow_eq_ok {hops : Nat} {node target : Schema}
    (followed : d.follow hops node = .ok target) :
    Relation.ReflTransGen d.Step node target ∧ ¬target.IsReference := by
  induction hops generalizing node with
  | zero =>
    unfold follow at followed
    cases shape : node.shape with
    | ref reference => simp [shape] at followed
    | _ =>
      obtain rfl : node = target := by simpa [shape] using followed
      exact ⟨.refl, fun ⟨_, other⟩ => by simp [shape] at other⟩
  | succ hops ih =>
    unfold follow at followed
    cases shape : node.shape with
    | ref reference =>
      cases found : d.target? reference with
      | none => simp [shape, found] at followed
      | some next =>
        obtain ⟨steps, concrete⟩ := ih (by simpa [shape, found] using followed)
        exact ⟨.head (.ref shape found) steps, concrete⟩
    | _ =>
      obtain rfl : node = target := by simpa [shape] using followed
      exact ⟨.refl, fun ⟨_, other⟩ => by simp [shape] at other⟩

theorem steps_of_resolve_eq_ok {node target : Schema} (resolved : d.resolve node = .ok target) :
    Relation.ReflTransGen d.Step node target :=
  (steps_of_follow_eq_ok resolved).1

theorem not_isReference_of_resolve_eq_ok {node target : Schema}
    (resolved : d.resolve node = .ok target) : ¬target.IsReference :=
  (steps_of_follow_eq_ok resolved).2

theorem Step.mem_values {node next : Schema} (step : d.Step node next) :
    next ∈ Entries.values d.schemas := by
  obtain ⟨_, found⟩ := step
  obtain ⟨name, _, found⟩ := Option.bind_eq_some_iff.mp found
  exact List.mem_map.mpr ⟨_, Entries.mem_of_get?_eq_some found, rfl⟩

theorem eq_or_mem_values_of_resolve_eq_ok {node target : Schema}
    (resolved : d.resolve node = .ok target) :
    target = node ∨ target ∈ Entries.values d.schemas := by
  rcases Relation.ReflTransGen.cases_tail (steps_of_resolve_eq_ok resolved) with rfl | ⟨_, _, last⟩
  · exact .inl rfl
  · exact .inr last.mem_values

theorem Shapes.unique {s : Schema} {shape other : Shape Schema} (first : d.Shapes s shape)
    (second : d.Shapes s other) : shape = other := by
  obtain ⟨target, resolved, rfl⟩ := first
  obtain ⟨again, resolvedAgain, rfl⟩ := second
  rw [resolved] at resolvedAgain
  rw [Except.ok.inj resolvedAgain]

theorem Branch.leads {s node : Schema} (branch : d.Branch s node) : d.Leads s node := by
  cases branch with
  | intersected shapes isBranch =>
    obtain ⟨target, resolved, shape⟩ := shapes
    exact ⟨target, resolved, by simpa [Schema.children, shape, Shape.nodes] using isBranch⟩
  | alternative shapes isBranch =>
    obtain ⟨target, resolved, shape⟩ := shapes
    exact ⟨target, resolved, by simpa [Schema.children, shape, Shape.nodes] using isBranch⟩

theorem reaches_of_resolve_eq_ok {s target : Schema} (resolved : d.resolve s = .ok target) :
    d.Reaches s target :=
  Relation.ReflTransGen.mono (fun _ _ => .reference) _ _ (steps_of_resolve_eq_ok resolved)

theorem reaches_of_leads {s node : Schema} (leads : d.Leads s node) : d.Reaches s node := by
  obtain ⟨target, resolved, isChild⟩ := leads
  exact (reaches_of_resolve_eq_ok resolved).tail (.nested (Schema.nested_of_mem_children isChild))

theorem leads_of_mem_nodes {s target node : Schema} {shape : Shape Schema}
    (resolved : d.resolve s = .ok target) (isShape : target.shape = shape)
    (isNode : node ∈ shape.nodes) : d.Leads s node :=
  ⟨target, resolved, by rwa [Schema.children, isShape]⟩

/-- What is closed under links holds everything that is reachable from its members. -/
theorem of_reaches {S : Schema → Prop} {s node : Schema}
    (closed : ∀ s node, S s → d.Link s node → S node) (start : S s) (reaches : d.Reaches s node) :
    S node := by
  induction reaches with
  | refl => exact start
  | tail _ link ih => exact closed _ _ ih link

theorem reaches_of_occurs {s node : Schema} (occurs : node.Occurs s) : d.Reaches s node := by
  induction occurs with
  | here => exact .refl
  | deeper nested _ ih => exact .head (.nested nested) ih

/-- A list of nodes that holds the named schemas and is closed under children holds everything
that is reachable from its members. -/
theorem mem_of_reaches {nodes : List Schema}
    (named : ∀ s ∈ Entries.values d.schemas, s ∈ nodes)
    (closed : ∀ s ∈ nodes, ∀ child ∈ s.children, child ∈ nodes) {s node : Schema}
    (start : s ∈ nodes) (reaches : d.Reaches s node) : node ∈ nodes := by
  refine of_reaches (fun s node inNodes link => ?_) start reaches
  cases link with
  | nested nested => exact closed s inNodes node (Schema.mem_children_of_nested nested)
  | reference step => exact named node step.mem_values

theorem Closed.resolves {s : Schema} (closed : d.Closed s) : d.Resolves s := by
  by_cases reference : s.IsReference
  · exact closed s .here reference
  · exact ⟨s, resolve_of_not_isReference reference⟩

theorem Closed.of_occurs {node s : Schema} (closed : d.Closed s) (occurs : node.Occurs s) :
    d.Closed node :=
  fun other inner => closed other (inner.trans occurs)

theorem Closed.child {child s : Schema} (closed : d.Closed s) (membership : child ∈ s.children) :
    d.Closed child :=
  closed.of_occurs (.child membership .here)

theorem closed_of_children_eq_nil {s : Schema} (leaf : s.children = [])
    (resolves : s.IsReference → d.Resolves s) : d.Closed s := by
  intro node occurs reference
  cases occurs with
  | here => exact resolves reference
  | deeper nested _ => simpa [leaf] using Schema.mem_children_of_nested nested

theorem Closed.of_isReference {s : Schema} (reference : s.IsReference) (resolves : d.Resolves s) :
    d.Closed s := by
  obtain ⟨target, shape⟩ := reference
  exact closed_of_children_eq_nil (by simp [Schema.children, shape, Shape.nodes]) fun _ => resolves

theorem closed_of_occurs (checked : d.checkReferences = .ok ()) {s : Schema}
    (occurs : d.Occurs s) : d.Closed s := by
  obtain ⟨named, isNamed, occurs⟩ := occurs
  intro node inner
  exact checkReferences_eq_ok_iff.mp checked node ⟨named, isNamed, inner.trans occurs⟩

theorem Closed.of_resolve_eq_ok (checked : d.checkReferences = .ok ()) {s target : Schema}
    (closed : d.Closed s) (resolved : d.resolve s = .ok target) : d.Closed target := by
  rcases eq_or_mem_values_of_resolve_eq_ok resolved with rfl | isNamed
  · exact closed
  · exact closed_of_occurs checked ⟨target, isNamed, .here⟩

theorem Closed.of_reaches (checked : d.checkReferences = .ok ()) {s node : Schema}
    (closed : d.Closed s) (reaches : d.Reaches s node) : d.Closed node := by
  refine Document.of_reaches (fun s node closed link => ?_) closed reaches
  cases link with
  | nested nested => exact closed.of_occurs (.deeper nested .here)
  | reference step => exact closed_of_occurs checked ⟨node, step.mem_values, .here⟩

end ApiContract.Document

import ApiContract.Proofs.Validation.Recursion
import ApiContract.Proofs.Validation.Soundness
import Mathlib.Data.Set.Card

/-!
Checks have an end.

A check calls itself in two ways: at a member of the value, against any node that the schema leads
to, and at the value itself, against a branch of the schema. Neither the value nor the schema alone
gets smaller, for schemas may be recursive. But where no chain of references and branches comes back
to a node, the branches that are still to come get fewer as long as the value stays, and the value
stays or gets less deep. The weight of a call counts both.
-/

namespace ApiContract

namespace Document

variable {document : Document} {s node : Schema}

/-- A link that keeps the value: to the target of a reference, or to a branch. -/
inductive Carries (document : Document) (s node : Schema) : Prop
  | reference : document.Step s node → Carries document s node
  | intersected {branches} : s.shape = .allOf branches → node ∈ branches → Carries document s node
  | alternative {branches} : s.shape = .oneOf branches → node ∈ branches → Carries document s node

/-- A chain of such links leads from the node back to itself. -/
def Loops (document : Document) (node : Schema) : Prop :=
  Relation.TransGen document.Carries node node

/-- No such chain is in reach of the schema. -/
def Unlooped (document : Document) (schema : Schema) : Prop :=
  ∀ node, document.Reaches schema node → ¬document.Loops node

theorem Unlooped.of_reaches (unlooped : document.Unlooped s) (reaches : document.Reaches s node) :
    document.Unlooped node :=
  fun inner deeper => unlooped inner (reaches.trans deeper)

theorem carries_of_branch (branch : document.Branch s node) :
    Relation.TransGen document.Carries s node := by
  have along {target : Schema} (resolved : document.resolve s = .ok target) :
      Relation.ReflTransGen document.Carries s target :=
    Relation.ReflTransGen.mono (fun _ _ => .reference) _ _ (steps_of_resolve_eq_ok resolved)
  cases branch with
  | intersected shapes isBranch =>
    obtain ⟨target, resolved, shape⟩ := shapes
    exact .tail' (along resolved) (.intersected shape isBranch)
  | alternative shapes isBranch =>
    obtain ⟨target, resolved, shape⟩ := shapes
    exact .tail' (along resolved) (.alternative shape isBranch)

theorem loops_of_branches (chain : Relation.TransGen document.Branch node node) :
    document.Loops node :=
  Relation.TransGen.closed (fun _ _ => carries_of_branch) _ _ chain

/-- No node loops in a set that no link leaves and where every link lowers a rank. -/
theorem not_loops_of_rank {S : Schema → Prop} (rank : Schema → Nat)
    (lowers : ∀ s node, S s → document.Carries s node → S node ∧ rank node < rank s)
    (inS : S node) : ¬document.Loops node := by
  intro loop
  have lower {last : Schema} (chain : Relation.TransGen document.Carries node last) :
      S last ∧ rank last < rank node := by
    induction chain with
    | single link => exact lowers _ _ inS link
    | tail _ link ih =>
      have next := lowers _ _ ih.1 link
      exact ⟨next.1, next.2.trans ih.2⟩
  exact Nat.lt_irrefl _ (lower loop).2

/-- What a check of a value against a schema goes on to check. -/
inductive Calls (document : Document) : Value × Schema → Value × Schema → Prop
  | inside {v segment w s node} : v.Member segment w → document.Leads s node →
      Calls document (v, s) (w, node)
  | across {v s node} : document.Branch s node → Calls document (v, s) (v, node)

/-- A bound on how deep the calls of a check are nested, by the depth of the value. -/
def callBound (document : Document) (schema : Schema) (depth : Nat) : Nat :=
  ({ document } : Validator).nodeCount schema * (depth + 1)

end Document

namespace Validator

open Report Relation

variable {d : Validator} {check : Check} {path : Path} {v : Value} {schema s node : Schema}
  {parent : Parent} {call next : Value × Schema}

/-- The nodes in reach that are branches of branches of a node. -/
def branchesFrom (d : Validator) (schema s : Schema) : Set Schema :=
  {node | node ∈ d.scope schema ∧ TransGen d.document.Branch s node}

noncomputable def weight (d : Validator) (schema : Schema) (call : Value × Schema) : Nat :=
  call.1.depth * d.nodeCount schema + (d.branchesFrom schema call.2).ncard

theorem branchesFrom_finite (d : Validator) (schema s : Schema) :
    (d.branchesFrom schema s).Finite :=
  (List.finite_toSet (d.scope schema)).subset fun _ inReach => inReach.1

theorem ncard_branchesFrom_lt_of_branch (unlooped : ¬d.document.Loops node)
    (inScope : node ∈ d.scope schema) (branch : d.document.Branch s node) :
    (d.branchesFrom schema node).ncard < (d.branchesFrom schema s).ncard := by
  refine Set.ncard_lt_ncard ⟨?_, fun included => ?_⟩ (branchesFrom_finite d schema s)
  · exact fun other inReach => ⟨inReach.1, .head branch inReach.2⟩
  · have again : node ∈ d.branchesFrom schema node := included ⟨inScope, .single branch⟩
    exact unlooped (Document.loops_of_branches again.2)

theorem ncard_branchesFrom_lt_nodeCount (unlooped : ¬d.document.Loops s)
    (inScope : s ∈ d.scope schema) : (d.branchesFrom schema s).ncard < d.nodeCount schema := by
  have fewer : (d.branchesFrom schema s).ncard < {node | node ∈ d.scope schema}.ncard := by
    refine Set.ncard_lt_ncard ⟨fun _ inReach => inReach.1, fun included => ?_⟩
      (List.finite_toSet (d.scope schema))
    have again : s ∈ d.branchesFrom schema s := included inScope
    exact unlooped (Document.loops_of_branches again.2)
  have distinct : {node | node ∈ d.scope schema}.ncard ≤ d.nodeCount schema := by
    classical
    have asFinset : {node | node ∈ d.scope schema} = ((d.scope schema).toFinset : Set Schema) := by
      ext node
      simp
    rw [asFinset, Set.ncard_coe_finset]
    exact List.toFinset_card_le _
  exact fewer.trans_le distinct

theorem reaches_of_calls (calls : d.document.Calls call next) :
    d.document.Reaches call.2 next.2 := by
  cases calls with
  | inside _ leads => exact Document.reaches_of_leads leads
  | across branch => exact Document.reaches_of_leads branch.leads

/-- Every call weighs less than the check that makes it. -/
theorem weight_lt_of_calls (unlooped : ¬d.document.Loops next.2)
    (calls : d.document.Calls call next) (inScope : call.2 ∈ d.scope schema) :
    d.weight schema next < d.weight schema call := by
  have isInScope := mem_scope_of_reaches inScope (reaches_of_calls calls)
  cases calls with
  | @inside v _ w s node member _ =>
    have few : (d.branchesFrom schema node).ncard < d.nodeCount schema :=
      ncard_branchesFrom_lt_nodeCount unlooped isInScope
    have levels : (w.depth + 1) * d.nodeCount schema ≤ v.depth * d.nodeCount schema :=
      Nat.mul_le_mul_right _ member.depth_lt
    rw [Nat.succ_mul] at levels
    dsimp only [weight]
    omega
  | across branch =>
    exact Nat.add_lt_add_left (ncard_branchesFrom_lt_of_branch unlooped isInScope branch) _

theorem weight_lt_callBound (unlooped : ¬d.document.Loops schema) :
    d.weight schema (v, schema) < d.document.callBound schema v.depth := by
  have few := ncard_branchesFrom_lt_nodeCount unlooped (self_mem_scope d schema)
  have bound : d.document.callBound schema v.depth =
      v.depth * d.nodeCount schema + d.nodeCount schema := by
    rw [Document.callBound, Nat.mul_comm, Nat.succ_mul]
    rfl
  rw [bound]
  exact Nat.add_lt_add_left few _

theorem acc_of_mem_scope (unlooped : d.document.Unlooped call.2)
    (inScope : call.2 ∈ d.scope schema) :
    Acc (fun next call => d.document.Calls call next) call := by
  induction call using (measure (d.weight schema)).wf.induction with
  | _ call ih =>
    refine .intro call fun next calls => ?_
    have toNext := reaches_of_calls calls
    exact ih next (weight_lt_of_calls (unlooped _ toNext) calls inScope)
      (unlooped.of_reaches toNext) (mem_scope_of_reaches inScope toNext)

theorem length_le_weight (unlooped : d.document.Unlooped call.2)
    {later : List (Value × Schema)} (inScope : call.2 ∈ d.scope schema)
    (chain : List.IsChain d.document.Calls (call :: later)) :
    later.length ≤ d.weight schema call := by
  induction later generalizing call with
  | nil => exact Nat.zero_le _
  | cons next later ih =>
    obtain ⟨calls, rest⟩ := List.isChain_cons_cons.mp chain
    have toNext := reaches_of_calls calls
    have fewer := ih (unlooped.of_reaches toNext) (mem_scope_of_reaches inScope toNext) rest
    have lighter := weight_lt_of_calls (unlooped _ toNext) calls inScope
    simp only [List.length_cons]
    omega

theorem ends_of_calls
    (each : ∀ w node, d.document.Calls (v, s) (w, node) → ∀ path parent,
      (d.validate path w node parent).Ends) :
    (d.validate path v s parent).Ends := by
  intro endless
  rw [validate_outcome] at endless
  cases origin_of_step_error endless with
  | inner resolved member isChild failed =>
    exact each _ _ (.inside member ⟨_, resolved, isChild⟩) _ _ failed
  | branch branch failed => exact each _ _ (.across branch) _ _ failed

theorem validate_eq_of_calls (ends : (d.validate path v s parent).Ends)
    (solves : check path v s parent = d.step check check path v s parent)
    (each : ∀ w node, d.document.Calls (v, s) (w, node) → ∀ path parent,
      check path w node parent = d.validate path w node parent) :
    check path v s parent = d.validate path v s parent := by
  have below : (d.step d.validate d.validate path v s parent).Below
      (d.step check check path v s parent) := by
    refine step_below (fun segment w node parent member leads => ?_) fun node parent branch => ?_
    · exact fun _ => each w node (.inside member leads) _ _
    · exact fun _ => each v node (.across branch) _ _
  have unfolded := validate_eq_step ends
  rw [unfolded] at ends
  exact (solves.trans (below ends)).trans unfolded.symm

/-- What holds of a call once it holds of all calls that it makes, holds of every call. -/
theorem calls_induction (unlooped : d.document.Unlooped s)
    {P : Value → Schema → Prop}
    (step : ∀ v node, d.document.Reaches s node →
      (∀ w inner, d.document.Calls (v, node) (w, inner) → P w inner) → P v node) : P v s := by
  have accessible : Acc (fun next call => d.document.Calls call next) (v, s) :=
    acc_of_mem_scope unlooped (self_mem_scope d s)
  suffices each : ∀ call, Acc (fun next call => d.document.Calls call next) call →
      d.document.Reaches s call.2 → P call.1 call.2 from each (v, s) accessible .refl
  intro call accessible
  induction accessible with
  | intro call _ ih =>
    intro reaches
    exact step call.1 call.2 reaches fun w inner calls =>
      ih (w, inner) calls (reaches.trans (reaches_of_calls calls))

theorem ends_of_unlooped (unlooped : d.document.Unlooped s)
    (path : Path) (parent : Parent) : (d.validate path v s parent).Ends :=
  calls_induction (P := fun v s => ∀ path parent, (d.validate path v s parent).Ends) unlooped
    (fun _ _ _ each _ _ => ends_of_calls each) path parent

/-- A check that solves the recursion equation at every call of a check is `validate` there. -/
theorem eq_validate_of_solves (unlooped : d.document.Unlooped s)
    (solves : ∀ w node, ReflTransGen d.document.Calls (v, s) (w, node) → ∀ path parent,
      check path w node parent = d.step check check path w node parent)
    (path : Path) (parent : Parent) : check path v s parent = d.validate path v s parent := by
  refine calls_induction (P := fun v s =>
    (∀ w node, ReflTransGen d.document.Calls (v, s) (w, node) → ∀ path parent,
      check path w node parent = d.step check check path w node parent) →
    ∀ path parent, check path v s parent = d.validate path v s parent) unlooped ?_ solves
    path parent
  intro v node reaches each solves path parent
  have ends : (d.validate path v node parent).Ends :=
    ends_of_unlooped (unlooped.of_reaches reaches) path parent
  refine validate_eq_of_calls ends (solves v node .refl path parent) fun w inner calls => ?_
  exact each w inner calls fun _ _ later => solves _ _ (.head calls later)

/-- Where no chain of references and branches leads from a node back to itself, be it a node of the
document or of the schema, the recursion of a check is well-founded. No chain of calls is longer
than a bound that the document, the schema and the depth of the value determine, every check has an
end, and it is the only solution of its recursion equation. With references that resolve, a value is
either accepted or turned down. -/
theorem recursion_is_wellFounded (d : Validator) (schema : Schema)
    (documentUnlooped : ∀ node, d.document.Occurs node → ¬d.document.Loops node)
    (schemaUnlooped : ∀ node, node.Occurs schema → ¬d.document.Loops node) (v : Value) :
    Acc (fun next call => d.document.Calls call next) (v, schema) ∧
      (∀ later, List.IsChain d.document.Calls ((v, schema) :: later) →
        later.length < d.document.callBound schema v.depth) ∧
      ∀ path parent,
        (d.validate path v schema parent).Ends ∧
          d.validate path v schema parent = d.step d.validate d.validate path v schema parent ∧
          (∀ check : Check,
            (∀ w node, ReflTransGen d.document.Calls (v, schema) (w, node) → ∀ path parent,
              check path w node parent = d.step check check path w node parent) →
            check path v schema parent = d.validate path v schema parent) ∧
          (d.document.checkReferences = .ok () → d.document.Closed schema →
            (∃ w, (d.validate path v schema parent).outcome = .ok w) ∨
              ∃ failure,
                (d.validate path v schema parent).outcome = .error (.invalid failure)) := by
  have unlooped : d.document.Unlooped schema := by
    intro node reaches
    have inScope : node ∈ d.scope schema := mem_scope_of_reaches (self_mem_scope d schema) reaches
    exact (mem_scope_iff.mp inScope).elim (documentUnlooped node) (schemaUnlooped node)
  have notLooped : ¬d.document.Loops schema := unlooped schema .refl
  have here : schema ∈ d.scope schema := self_mem_scope d schema
  refine ⟨acc_of_mem_scope unlooped here, fun later chain => ?_, fun path parent => ?_⟩
  · have short := length_le_weight unlooped here chain
    exact short.trans_lt (weight_lt_callBound notLooped)
  have ends : (d.validate path v schema parent).Ends := ends_of_unlooped unlooped path parent
  refine ⟨ends, validate_eq_step ends, fun check solves => ?_, fun checked closed => ?_⟩
  · exact eq_validate_of_solves unlooped solves path parent
  · cases outcome : (d.validate path v schema parent).outcome with
    | ok w => exact .inl ⟨w, rfl⟩
    | error cause =>
      cases cause with
      | invalid failure => exact .inr ⟨failure, rfl⟩
      | schema cause => exact absurd outcome (validate_ne_schema checked closed path v parent cause)
      | endless => exact absurd outcome ends

/-- A node of a tree: a name, and the nodes below it, or a text in place of the next one. -/
def treeLinks : Schema :=
  .object [("below", .array (.reference "Node")),
    ("next", .oneOf [.reference "Node", .string])] []

def treeNode : Schema := .allOf [.reference "Named", treeLinks]

def treeName : Schema := .object [("name", .string)] ["name"]

def treeDocument : Document := { schemas := [("Node", treeNode), ("Named", treeName)] }

def treeRank (s : Schema) : Nat :=
  match s.shape with
  | .ref "Named" => 1
  | .allOf _ => 2
  | .ref _ => 3
  | .oneOf _ => 4
  | _ => 0

def treeNodes : List Schema :=
  [treeNode, treeName, treeLinks, .reference "Named", .reference "Node", .string,
    .array (.reference "Node"), .oneOf [.reference "Node", .string]]

theorem mem_treeNodes_of_occurs {s node : Schema} (inTree : s ∈ treeNodes)
    (occurs : node.Occurs s) : node ∈ treeNodes := by
  refine Document.mem_of_reaches (d := treeDocument) ?_ ?_ inTree
    (Document.reaches_of_occurs occurs)
  · simp [treeDocument, treeNodes, Entries.values]
  · simp [treeNodes, Schema.children, treeNode, treeName, treeLinks, Schema.object, Schema.string,
      Schema.array, Schema.reference, Schema.allOf, Schema.oneOf, Schema.plain, Shape.nodes,
      Additional.nodes, Entries.values, Entries.ofList, Entries.extend, Entries.insert]

theorem not_loops_of_mem_treeNodes {node : Schema} (inTree : node ∈ treeNodes) :
    ¬treeDocument.Loops node := by
  refine Document.not_loops_of_rank (S := (· ∈ treeNodes)) treeRank ?_ inTree
  intro s node inTree link
  simp only [treeNodes, List.mem_cons, List.not_mem_nil, or_false] at inTree
  cases link with
  | reference step =>
    obtain ⟨shape, found⟩ := step
    rcases inTree with rfl | rfl | rfl | rfl | rfl | rfl | rfl | rfl <;> cases shape <;> cases found
    · exact ⟨by simp [treeNodes], by decide⟩
    · exact ⟨by simp [treeNodes], by decide⟩
  | intersected shape isBranch =>
    rcases inTree with rfl | rfl | rfl | rfl | rfl | rfl | rfl | rfl <;> cases shape
    rcases List.mem_pair.mp isBranch with rfl | rfl <;> exact ⟨by simp [treeNodes], by decide⟩
  | alternative shape isBranch =>
    rcases inTree with rfl | rfl | rfl | rfl | rfl | rfl | rfl | rfl <;> cases shape
    rcases List.mem_pair.mp isBranch with rfl | rfl <;> exact ⟨by simp [treeNodes], by decide⟩

def treeValue : Value :=
  .object [("name", .string "oak"),
    ("below", .array [.object [("name", .string "branch"), ("next", .string "leaf")]])]

/-- In the tree document, where a node leads to nodes by a list and by a union, no chain of calls
is endless. -/
theorem treeDocument_recursion :
    (∀ node, treeDocument.Occurs node → ¬treeDocument.Loops node) ∧
      (∀ node, node.Occurs (.reference "Node") → ¬treeDocument.Loops node) ∧
      Acc (fun next call => treeDocument.Calls call next) (treeValue, .reference "Node") ∧
      (∀ later, List.IsChain treeDocument.Calls ((treeValue, .reference "Node") :: later) →
        later.length < treeDocument.callBound (.reference "Node") treeValue.depth) ∧
      (validate { document := treeDocument } { root := "body" } treeValue (.reference "Node")
        .unknown).Ends := by
  have document : ∀ node, treeDocument.Occurs node → ¬treeDocument.Loops node := by
    rintro node ⟨named, isNamed, occurs⟩
    have root : named = treeNode ∨ named = treeName := by
      simpa [treeDocument, Entries.values] using isNamed
    have inTree : named ∈ treeNodes := by
      rcases root with rfl | rfl <;> simp [treeNodes]
    exact not_loops_of_mem_treeNodes (mem_treeNodes_of_occurs inTree occurs)
  have schema : ∀ node, node.Occurs (.reference "Node") → ¬treeDocument.Loops node :=
    fun node occurs =>
      not_loops_of_mem_treeNodes (mem_treeNodes_of_occurs (by simp [treeNodes]) occurs)
  obtain ⟨accessible, bound, checks⟩ := recursion_is_wellFounded { document := treeDocument }
    (.reference "Node") document schema treeValue
  exact ⟨document, schema, accessible, bound, (checks _ _).1⟩

end Validator

end ApiContract

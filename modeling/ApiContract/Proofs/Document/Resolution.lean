import ApiContract.Proofs.Document.References
import Mathlib.Data.List.GetD
import Mathlib.Logic.Function.Iterate

/-!
Resolution is exact.

Along a chain of references that ends no node comes twice, because from a node on the chain goes one
way only. All nodes behind the first are named schemas, so a chain that ends has at most as many
links as there are names, and the limit on hops turns down chains that never end and no others.
-/

namespace ApiContract.Document

/-- The chain of references from a node ends at a node that is none. -/
def EndsAt (d : Document) (node target : Schema) : Prop :=
  Relation.ReflTransGen d.Step node target ∧ ¬target.IsReference

/-- The chain comes to a reference without a target in the document. -/
def BreaksAt (d : Document) (node : Schema) (reference : String) : Prop :=
  ∃ last, Relation.ReflTransGen d.Step node last ∧ last.shape = .ref reference ∧
    d.target? reference = none

/-- The chain goes on for ever. -/
def Circles (d : Document) (node : Schema) : Prop :=
  ∃ nodes : Nat → Schema, nodes 0 = node ∧ ∀ n, d.Step (nodes n) (nodes (n + 1))

/-- The nodes behind the first one along a chain of references, up to one that leads no further. -/
inductive Chain (d : Document) : Schema → List Schema → Prop
  | final {node} : (∀ next, ¬d.Step node next) → Chain d node []
  | step {node next later} : d.Step node next → Chain d next later → Chain d node (next :: later)

variable {d : Document} {node next target : Schema} {later : List Schema} {reference : String}

theorem Step.unique {other : Schema} (first : d.Step node next) (second : d.Step node other) :
    next = other := by
  obtain ⟨shape, found⟩ := first
  obtain ⟨shapeAgain, foundAgain⟩ := second
  obtain rfl := Shape.ref.inj (shape.symm.trans shapeAgain)
  exact Option.some.inj (found.symm.trans foundAgain)

theorem Step.isReference (link : d.Step node next) : node.IsReference :=
  let ⟨shape, _⟩ := link
  ⟨_, shape⟩

theorem not_step_of_not_isReference (concrete : ¬node.IsReference) (next : Schema) :
    ¬d.Step node next :=
  fun link => concrete link.isReference

theorem not_step_of_target?_eq_none (shape : node.shape = .ref reference)
    (dangling : d.target? reference = none) (next : Schema) : ¬d.Step node next := by
  rintro ⟨shapeAgain, found⟩
  obtain rfl := Shape.ref.inj (shape.symm.trans shapeAgain)
  rw [dangling] at found
  cases found

theorem Chain.unique {others : List Schema} (chain : d.Chain node later)
    (other : d.Chain node others) : later = others := by
  induction chain generalizing others with
  | final ends =>
    cases other with
    | final => rfl
    | step link _ => exact absurd link (ends _)
  | step link _ ih =>
    cases other with
    | final ends => exact absurd link (ends _)
    | step linkAgain rest =>
      obtain rfl := link.unique linkAgain
      rw [ih rest]

theorem Chain.exists_rest (chain : d.Chain node later) (onChain : next ∈ later) :
    ∃ rest, d.Chain next rest ∧ rest.length < later.length := by
  induction chain with
  | final => cases onChain
  | step _ chain ih =>
    rcases List.mem_cons.mp onChain with rfl | further
    · exact ⟨_, chain, Nat.lt_succ_self _⟩
    · obtain ⟨rest, chainOfRest, shorter⟩ := ih further
      exact ⟨rest, chainOfRest, Nat.lt_succ_of_lt shorter⟩

theorem Chain.nodup (chain : d.Chain node later) : later.Nodup := by
  induction chain with
  | final => exact List.nodup_nil
  | step _ chain ih =>
    refine List.nodup_cons.mpr ⟨fun again => ?_, ih⟩
    -- From both of its places the node has the same chain, but from the second a shorter one.
    obtain ⟨rest, chainAgain, shorter⟩ := chain.exists_rest again
    rw [chain.unique chainAgain] at shorter
    exact Nat.lt_irrefl _ shorter

theorem Chain.mem_values (chain : d.Chain node later) :
    ∀ s ∈ later, s ∈ Entries.values d.schemas := by
  induction chain with
  | final => simp
  | step link _ ih => exact List.forall_mem_cons.mpr ⟨link.mem_values, ih⟩

/-- A chain that ends has no more links than the document has names. -/
theorem Chain.length_le_size (chain : d.Chain node later) : later.length ≤ d.size := by
  have bound := chain.nodup.length_le_of_subset fun s => chain.mem_values s
  simpa [Entries.values, size] using bound

theorem exists_chain_of_steps {last : Schema} (steps : Relation.ReflTransGen d.Step node last)
    (final : ∀ next, ¬d.Step last next) :
    ∃ later, d.Chain node later ∧ later.getLastD node = last := by
  induction steps using Relation.ReflTransGen.head_induction_on with
  | refl => exact ⟨[], .final final, rfl⟩
  | head link _ ih =>
    obtain ⟨later, chain, isLast⟩ := ih
    exact ⟨_ :: later, .step link chain, by rwa [List.getLastD_cons]⟩

theorem Chain.steps (chain : d.Chain node later) :
    Relation.ReflTransGen d.Step node (later.getLastD node) := by
  induction chain with
  | final => exact .refl
  | step link _ ih =>
    rw [List.getLastD_cons]
    exact .head link ih

theorem Chain.final_last (chain : d.Chain node later) (next : Schema) :
    ¬d.Step (later.getLastD node) next := by
  induction chain with
  | final ends => exact ends next
  | step _ _ ih => rwa [List.getLastD_cons]

/-- A chain that has no end circles. -/
theorem circles_of_not_chain (endless : ¬∃ later, d.Chain node later) : d.Circles node := by
  have goesOn (s : {s // ¬∃ later, d.Chain s later}) :
      ∃ next : {s // ¬∃ later, d.Chain s later}, d.Step s.1 next.1 := by
    by_contra ends
    refine s.2 ⟨[], .final fun next link => ends ⟨⟨next, ?_⟩, link⟩⟩
    rintro ⟨later, chain⟩
    exact s.2 ⟨next :: later, .step link chain⟩
  choose advance link using goesOn
  refine ⟨fun n => (advance^[n] ⟨node, endless⟩).1, rfl, fun n => ?_⟩
  have next := link (advance^[n] ⟨node, endless⟩)
  rwa [← Function.iterate_succ_apply' advance n] at next

theorem follow_of_step (link : d.Step node next) (hops : Nat) :
    d.follow (hops + 1) node = d.follow hops next := by
  obtain ⟨shape, found⟩ := link
  rw [follow]
  simp only [shape, found]

theorem Chain.follow (chain : d.Chain node later) (hops : Nat) :
    d.follow (hops + later.length) node = d.follow hops (later.getLastD node) := by
  induction chain with
  | final => rfl
  | step link _ ih => rw [List.length_cons, ← Nat.add_assoc, follow_of_step link, ih,
      List.getLastD_cons]

/-- The limit leaves a hop to spare at the end of a chain. -/
theorem Chain.exists_resolve (chain : d.Chain node later) :
    ∃ spare, d.resolve node = d.follow (spare + 1) (later.getLastD node) := by
  have bound := chain.length_le_size
  refine ⟨d.size - later.length, ?_⟩
  rw [← chain.follow, resolve]
  congr 1
  omega

theorem follow_of_circles (circles : d.Circles node) (hops : Nat) :
    ∃ reference, d.follow hops node = .error (.referenceCycle reference) := by
  obtain ⟨nodes, rfl, links⟩ := circles
  induction hops generalizing nodes with
  | zero =>
    obtain ⟨reference, shape⟩ : (nodes 0).IsReference := (links 0).isReference
    refine ⟨reference, ?_⟩
    rw [Document.follow]
    simp only [shape]
  | succ hops ih =>
    rw [follow_of_step (links 0)]
    exact ih (fun n => nodes (n + 1)) fun n => links (n + 1)

theorem resolve_of_endsAt (ends : d.EndsAt node target) : d.resolve node = .ok target := by
  obtain ⟨steps, concrete⟩ := ends
  obtain ⟨later, chain, rfl⟩ := exists_chain_of_steps steps (not_step_of_not_isReference concrete)
  obtain ⟨spare, resolved⟩ := chain.exists_resolve
  rw [resolved, follow_of_not_isReference concrete]

theorem resolve_of_breaksAt (breaks : d.BreaksAt node reference) :
    d.resolve node = .error (.unresolvable reference) := by
  obtain ⟨last, steps, shape, dangling⟩ := breaks
  obtain ⟨later, chain, rfl⟩ :=
    exists_chain_of_steps steps (not_step_of_target?_eq_none shape dangling)
  obtain ⟨spare, resolved⟩ := chain.exists_resolve
  rw [resolved, Document.follow]
  simp only [shape, dangling]

/-- The limit tells apart the three ways in which a chain can go. -/
theorem resolve_cases (d : Document) (node : Schema) :
    (∃ target, d.EndsAt node target ∧ d.resolve node = .ok target) ∨
      (∃ reference, d.BreaksAt node reference ∧
        d.resolve node = .error (.unresolvable reference)) ∨
      d.Circles node ∧ ∃ reference, d.resolve node = .error (.referenceCycle reference) := by
  by_cases ends : ∃ later, d.Chain node later
  · obtain ⟨later, chain⟩ := ends
    by_cases isReference : (later.getLastD node).IsReference
    · obtain ⟨reference, shape⟩ := isReference
      have dangling : d.target? reference = none := by
        rw [← Option.not_isSome_iff_eq_none, Option.isSome_iff_exists]
        rintro ⟨next, found⟩
        exact chain.final_last next (.ref shape found)
      have breaks : d.BreaksAt node reference := ⟨_, chain.steps, shape, dangling⟩
      exact .inr (.inl ⟨reference, breaks, resolve_of_breaksAt breaks⟩)
    · have endsAt : d.EndsAt node (later.getLastD node) := ⟨chain.steps, isReference⟩
      exact .inl ⟨_, endsAt, resolve_of_endsAt endsAt⟩
  · have circles := circles_of_not_chain ends
    exact .inr (.inr ⟨circles, follow_of_circles circles _⟩)

/-- Resolution gives what the chain of references from a node comes to, whatever the document and
the spellings of its references: the node at its end, which is no reference; the first reference
without a target; or a cycle, where the chain never ends. -/
theorem resolution_is_exact (d : Document) (node : Schema) :
    (∀ target, d.resolve node = .ok target ↔ d.EndsAt node target) ∧
      (∀ reference,
        d.resolve node = .error (.unresolvable reference) ↔ d.BreaksAt node reference) ∧
      ((∃ reference, d.resolve node = .error (.referenceCycle reference)) ↔ d.Circles node) ∧
      ∀ cause, d.resolve node = .error cause → ∃ reference,
        (cause = .unresolvable reference ∧
          cause.message = "Could not resolve reference '" ++ reference ++ "'") ∨
        (cause = .referenceCycle reference ∧
          cause.message = "Reference cycle detected at '" ++ reference ++ "'") := by
  refine ⟨fun target => ⟨steps_of_follow_eq_ok, resolve_of_endsAt⟩,
    fun reference => ⟨fun broken => ?_, resolve_of_breaksAt⟩,
    ⟨fun ⟨reference, cyclic⟩ => ?_, fun circles => follow_of_circles circles _⟩,
    fun cause failed => ?_⟩
  · rcases resolve_cases d node with ⟨target, -, ends⟩ | ⟨other, breaks, resolved⟩ | ⟨-, _, cyclic⟩
    · simp [ends] at broken
    · obtain rfl : other = reference := by simpa [resolved] using broken
      exact breaks
    · simp [cyclic] at broken
  · rcases resolve_cases d node with ⟨target, -, ends⟩ | ⟨other, -, broken⟩ | ⟨circles, -⟩
    · simp [ends] at cyclic
    · simp [broken] at cyclic
    · exact circles
  · rcases resolve_cases d node with ⟨target, -, ends⟩ | ⟨other, -, broken⟩ | ⟨-, other, cyclic⟩
    · simp [ends] at failed
    · obtain rfl := Except.error.inj (broken.symm.trans failed)
      exact ⟨other, .inl ⟨rfl, rfl⟩⟩
    · obtain rfl := Except.error.inj (cyclic.symm.trans failed)
      exact ⟨other, .inr ⟨rfl, rfl⟩⟩

end ApiContract.Document

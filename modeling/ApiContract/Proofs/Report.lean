import ApiContract.Report
import Mathlib.Data.List.Forall2

/-!
Outcomes of composed computations.

A sequence succeeds when all of its parts do, and otherwise has the error of its first part that
fails. The outcome of a composed report is composed in the same way from the outcomes of its parts,
whatever the events are.
-/

namespace ApiContract

namespace Outcome

variable {ε ε' α β : Type}

theorem bind_eq_ok {x : Except ε α} {f : α → Except ε β} {b : β} :
    x >>= f = .ok b ↔ ∃ a, x = .ok a ∧ f a = .ok b := by
  cases x with
  | ok a => simp [bind, Except.bind]
  | error e => simp [bind, Except.bind]

theorem bind_eq_error {x : Except ε α} {f : α → Except ε β} {e : ε} :
    x >>= f = .error e ↔ x = .error e ∨ ∃ a, x = .ok a ∧ f a = .error e := by
  cases x with
  | ok a => simp [bind, Except.bind]
  | error e => simp [bind, Except.bind]

theorem pure_eq_ok {a b : α} : (pure a : Except ε α) = .ok b ↔ a = b := by
  simp [pure, Except.pure]

theorem map_eq_ok {f : α → β} {x : Except ε α} {b : β} :
    f <$> x = .ok b ↔ ∃ a, x = .ok a ∧ f a = b := by
  cases x <;> simp [Functor.map, Except.map]

theorem pure_ne_error {a : α} {e : ε} : (pure a : Except ε α) ≠ .error e := by
  simp [pure, Except.pure]

theorem mapError_eq_ok {f : ε → ε'} {x : Except ε α} {a : α} :
    x.mapError f = .ok a ↔ x = .ok a := by
  cases x <;> simp [Except.mapError]

theorem mapError_eq_error {f : ε → ε'} {x : Except ε α} {e : ε'} :
    x.mapError f = .error e ↔ ∃ cause, x = .error cause ∧ e = f cause := by
  cases x <;> simp [Except.mapError, eq_comm]

theorem mapM_eq_ok {f : α → Except ε β} {inputs : List α} {outputs : List β} :
    inputs.mapM f = .ok outputs ↔ List.Forall₂ (fun a b => f a = .ok b) inputs outputs := by
  induction inputs generalizing outputs with
  | nil => rw [List.mapM_nil, pure_eq_ok, List.forall₂_nil_left_iff, eq_comm]
  | cons a rest ih =>
    simp only [List.mapM_cons, bind_eq_ok, pure_eq_ok, ih, List.forall₂_cons_left_iff]
    constructor
    · rintro ⟨b, first, bs, others, rfl⟩
      exact ⟨b, bs, first, others, rfl⟩
    · rintro ⟨b, bs, first, others, rfl⟩
      exact ⟨b, first, bs, others, rfl⟩

/-- The error of a traversal is the error of the first element that fails. -/
theorem mapM_eq_error {f : α → Except ε β} {inputs : List α} {e : ε} :
    inputs.mapM f = .error e ↔
      ∃ before a after, inputs = before ++ a :: after ∧
        (∀ x ∈ before, ∃ b, f x = .ok b) ∧ f a = .error e := by
  induction inputs with
  | nil => simp [pure_ne_error]
  | cons head rest ih =>
    simp only [List.mapM_cons, bind_eq_error, pure_ne_error, and_false, exists_false, or_false, ih]
    constructor
    · rintro (failed | ⟨b, accepted, before, a, after, rfl, passed, failed⟩)
      · exact ⟨[], head, rest, rfl, by simp, failed⟩
      · refine ⟨head :: before, a, after, rfl, ?_, failed⟩
        intro x membership
        rcases List.mem_cons.mp membership with rfl | earlier
        · exact ⟨b, accepted⟩
        · exact passed x earlier
    · rintro ⟨before, a, after, split, passed, failed⟩
      cases before with
      | nil =>
        obtain ⟨rfl, rfl⟩ := List.cons.inj split
        exact .inl failed
      | cons first before =>
        obtain ⟨rfl, rfl⟩ := List.cons.inj split
        obtain ⟨b, accepted⟩ := passed head (by simp)
        exact .inr ⟨b, accepted, before, a, after, rfl,
          fun x earlier => passed x (by simp [earlier]), failed⟩

theorem mapM_congr {f g : α → Except ε β} {inputs : List α} (same : ∀ a ∈ inputs, f a = g a) :
    inputs.mapM f = inputs.mapM g := by
  induction inputs with
  | nil => rfl
  | cons a rest ih =>
    rw [List.mapM_cons, List.mapM_cons, same a List.mem_cons_self,
      ih fun b later => same b (List.mem_cons_of_mem a later)]

theorem exists_mem_left_of_forall₂ {R : α → β → Prop} {inputs : List α} {outputs : List β}
    (related : List.Forall₂ R inputs outputs) {b : β} (membership : b ∈ outputs) :
    ∃ a ∈ inputs, R a b := by
  induction related with
  | nil => simp at membership
  | cons first _ ih =>
    rcases List.mem_cons.mp membership with rfl | later
    · exact ⟨_, List.mem_cons_self, first⟩
    · obtain ⟨a, inRest, related⟩ := ih later
      exact ⟨a, List.mem_cons_of_mem _ inRest, related⟩

theorem exists_mem_right_of_forall₂ {R : α → β → Prop} {inputs : List α} {outputs : List β}
    (related : List.Forall₂ R inputs outputs) {a : α} (membership : a ∈ inputs) :
    ∃ b ∈ outputs, R a b :=
  exists_mem_left_of_forall₂ related.flip membership

theorem forall₂_imp_of_mem {R S : α → β → Prop} {inputs : List α} {outputs : List β}
    (related : List.Forall₂ R inputs outputs)
    (keeps : ∀ a ∈ inputs, ∀ b ∈ outputs, R a b → S a b) : List.Forall₂ S inputs outputs := by
  induction related with
  | nil => exact .nil
  | cons first _ ih =>
    refine .cons (keeps _ List.mem_cons_self _ List.mem_cons_self first) (ih ?_)
    intro a isInput b isOutput
    exact keeps a (List.mem_cons_of_mem _ isInput) b (List.mem_cons_of_mem _ isOutput)

theorem exists_forall₂ {R : α → β → Prop} {inputs : List α} (each : ∀ a ∈ inputs, ∃ b, R a b) :
    ∃ outputs, List.Forall₂ R inputs outputs := by
  induction inputs with
  | nil => exact ⟨[], .nil⟩
  | cons a rest ih =>
    obtain ⟨b, first⟩ := each a List.mem_cons_self
    obtain ⟨outputs, others⟩ := ih fun a later => each a (List.mem_cons_of_mem _ later)
    exact ⟨b :: outputs, .cons first others⟩

theorem forM_eq_ok {f : α → Except ε Unit} {items : List α} :
    items.forM f = .ok () ↔ ∀ a ∈ items, f a = .ok () := by
  induction items with
  | nil => simp [pure_eq_ok]
  | cons a rest ih =>
    rw [List.forM_eq_forM] at ih ⊢
    rw [List.forM_cons, bind_eq_ok, List.forall_mem_cons, ih]
    constructor
    · rintro ⟨⟨⟩, first, others⟩
      exact ⟨first, others⟩
    · rintro ⟨first, others⟩
      exact ⟨(), first, others⟩

end Outcome

namespace Report

variable {ε ε' α β : Type}

theorem outcome_bind_eq (x : Report ε α) (f : α → Report ε β) :
    (x >>= f).outcome = x.outcome >>= fun a => (f a).outcome :=
  outcome_bind x f

theorem outcome_bind_of_eq_ok {x : Report ε α} {a : α} (first : x.outcome = .ok a)
    (f : α → Report ε β) : (x >>= f).outcome = (f a).outcome := by
  rw [outcome_bind, first]
  rfl

theorem outcome_mapM (f : α → Report ε β) (inputs : List α) :
    (inputs.mapM f).outcome = inputs.mapM fun a => (f a).outcome := by
  induction inputs with
  | nil => rfl
  | cons a rest ih =>
    simp only [List.mapM_cons, outcome_bind_eq, outcome_pure, ih]
    rfl

@[simp] theorem outcome_map (f : α → β) (x : Report ε α) :
    (f <$> x).outcome = x.outcome.map f := by
  rw [map_eq_pure_bind, outcome_bind_eq]
  cases x.outcome <;> rfl

theorem outcome_bind_eq_ok {x : Report ε α} {f : α → Report ε β} {b : β} :
    (x >>= f).outcome = .ok b ↔ ∃ a, x.outcome = .ok a ∧ (f a).outcome = .ok b := by
  rw [outcome_bind_eq, Outcome.bind_eq_ok]

theorem outcome_bind_eq_error {x : Report ε α} {f : α → Report ε β} {e : ε} :
    (x >>= f).outcome = .error e ↔
      x.outcome = .error e ∨ ∃ a, x.outcome = .ok a ∧ (f a).outcome = .error e := by
  rw [outcome_bind_eq, Outcome.bind_eq_error]

theorem outcome_mapM_eq_ok {f : α → Report ε β} {inputs : List α} {outputs : List β} :
    (inputs.mapM f).outcome = .ok outputs ↔
      List.Forall₂ (fun a b => (f a).outcome = .ok b) inputs outputs := by
  rw [outcome_mapM, Outcome.mapM_eq_ok]

theorem outcome_mapM_eq_error {f : α → Report ε β} {inputs : List α} {e : ε} :
    (inputs.mapM f).outcome = .error e ↔
      ∃ before a after, inputs = before ++ a :: after ∧
        (∀ x ∈ before, ∃ b, (f x).outcome = .ok b) ∧ (f a).outcome = .error e := by
  rw [outcome_mapM, Outcome.mapM_eq_error]

def keyed (f : String → α → Report ε β) (e : String × α) : Report ε (String × β) := do
  return (e.1, ← f e.1 e.2)

theorem outcome_keyed_eq_ok {f : String → α → Report ε β} {e : String × α}
    {result : String × β} :
    (keyed f e).outcome = .ok result ↔
      result.1 = e.1 ∧ (f e.1 e.2).outcome = .ok result.2 := by
  simp only [keyed, outcome_bind_eq_ok, outcome_pure, Except.ok.injEq]
  constructor
  · rintro ⟨a, accepted, rfl⟩
    exact ⟨rfl, accepted⟩
  · obtain ⟨_, a⟩ := result
    rintro ⟨rfl, accepted⟩
    exact ⟨a, accepted, rfl⟩

@[simp] theorem outcome_ofExcept (x : Except ε α) : (ofExcept x).outcome = x := by
  cases x <;> rfl

@[simp] theorem outcome_emit (e : Event) : (emit e : Report ε Unit).outcome = .ok () := rfl

@[simp] theorem outcome_attempt (x : Report ε α) :
    (x.attempt : Report ε' (Except ε α)).outcome = .ok x.outcome := rfl

@[simp] theorem outcome_mapError (f : ε → ε') (x : Report ε α) :
    (x.mapError f).outcome = x.outcome.mapError f := by
  unfold mapError
  cases x.outcome <;> rfl

def error? (x : Report ε α) : Option ε :=
  match x.outcome with
  | .ok _ => none
  | .error e => some e

theorem error?_eq_some_iff {x : Report ε α} {e : ε} : x.error? = some e ↔ x.outcome = .error e := by
  unfold error?
  cases x.outcome <;> simp

theorem error?_eq_none_iff {x : Report ε α} : x.error? = none ↔ ∃ a, x.outcome = .ok a := by
  unfold error?
  cases x.outcome <;> simp

theorem error?_congr {x : Report ε α} {y : Report ε α} (same : x.outcome = y.outcome) :
    x.error? = y.error? := by
  rw [error?, error?, same]

@[simp] theorem error?_pure (a : α) : (pure a : Report ε α).error? = none := rfl

/-- The error of the first part comes first, then the one that the rest has after any success. -/
theorem error?_bind {x : Report ε α} {f : α → Report ε β} {later : Option ε}
    (rest : ∀ a, x.outcome = .ok a → (f a).error? = later) :
    (x >>= f).error? = x.error?.or later := by
  obtain ⟨log, outcome⟩ := x
  cases outcome with
  | ok a => exact rest a rfl
  | error e => rfl

/-- A traversal reports the error of the first element that fails. -/
theorem error?_mapM (f : α → Report ε β) (inputs : List α) :
    (inputs.mapM f).error? = inputs.findSome? fun a => (f a).error? := by
  induction inputs with
  | nil => rfl
  | cons a inputs ih =>
    rw [List.mapM_cons, error?_bind fun b _ => error?_bind fun bs _ => error?_pure (b :: bs), ih,
      Option.or_none, List.findSome?_cons]
    cases (f a).error? <;> rfl

end Report

end ApiContract

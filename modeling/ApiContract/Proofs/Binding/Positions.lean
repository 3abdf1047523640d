import ApiContract.Proofs.Binding.Bodies

/-!
The arguments of a list of parameters.

Parameters are bound one after the other, so a list that is cut in two is bound like its two parts
in a row, and nothing behind a fault is looked at. That a discriminator is left alone is said by the
run not depending on it: whatever is put in its place, the report stays the same.
-/

namespace ApiContract

/-- Whether a run depends on the discriminator that it is given. -/
def Discriminator.Consulted {α : Type} (run : Discriminator → Report Fault α) : Prop :=
  ∃ choose other, run choose ≠ run other

def BodyRule.choosing (rule : BodyRule) (choose : Discriminator) : BodyRule :=
  { rule with discriminator? := some choose }

theorem Report.bind_of_outcome_error {ε α β : Type} {x : Report ε α} {e : ε}
    (failed : x.outcome = .error e) (f : α → Report ε β) : x >>= f = ⟨x.log, .error e⟩ := by
  simp only [bind_def, Report.bind, failed]

namespace Validator

variable {d : Validator} {rule? : Option BodyRule} {rule : BodyRule} {r : Request}
  {ps qs : List Parameter} {p q : Parameter}

def bound (d : Validator) (rule? : Option BodyRule) (r : Request) (ps : List Parameter) :
    Except Fault (List Argument) :=
  (d.bind { parameters := ps, body? := rule? } r).outcome

/-- Binds parameters that each have a rule for bodies of their own. -/
def bindEach (d : Validator) (r : Request) (entries : List (Parameter × Option BodyRule)) :
    Report Fault (List Argument) :=
  entries.mapM fun e => d.bindParameter e.2 r e.1

theorem bindAll_eq_mapM (d : Validator) (rule? : Option BodyRule) (r : Request)
    (ps : List Parameter) : d.bindAll rule? r ps = ps.mapM (d.bindParameter rule? r) := by
  induction ps with
  | nil => rfl
  | cons p rest ih => rw [bindAll, List.mapM_cons, ih]

theorem bind_eq_bindEach (d : Validator) (rule? : Option BodyRule) (r : Request)
    (ps : List Parameter) :
    d.bind { parameters := ps, body? := rule? } r = d.bindEach r (ps.map fun p => (p, rule?)) := by
  rw [bind, bindAll_eq_mapM, bindEach, List.mapM_map]
  rfl

theorem bind_append (d : Validator) (rule? : Option BodyRule) (r : Request)
    (ps qs : List Parameter) :
    d.bind { parameters := ps ++ qs, body? := rule? } r = (do
      let front ← d.bind { parameters := ps, body? := rule? } r
      let back ← d.bind { parameters := qs, body? := rule? } r
      return front ++ back) := by
  simp only [bind, bindAll_eq_mapM, List.mapM_append]

theorem bound_append_eq_ok {args : List Argument} :
    d.bound rule? r (ps ++ qs) = .ok args ↔
      ∃ front back, d.bound rule? r ps = .ok front ∧ d.bound rule? r qs = .ok back ∧
        args = front ++ back := by
  simp only [bound, bind_append, Report.outcome_bind_eq_ok, Report.outcome_pure, Except.ok.injEq]
  constructor
  · rintro ⟨front, bound, back, later, rfl⟩
    exact ⟨front, back, bound, later, rfl⟩
  · rintro ⟨front, back, bound, later, rfl⟩
    exact ⟨front, bound, back, later, rfl⟩

theorem bound_append_eq_error {fault : Fault} :
    d.bound rule? r (ps ++ qs) = .error fault ↔
      d.bound rule? r ps = .error fault ∨
        (∃ front, d.bound rule? r ps = .ok front) ∧ d.bound rule? r qs = .error fault := by
  simp only [bound, bind_append, Report.outcome_bind_eq_error, Report.outcome_pure, reduceCtorEq,
    and_false, exists_false, or_false, exists_and_right]

theorem bound_eq_ok {args : List Argument} :
    d.bound rule? r ps = .ok args ↔
      List.Forall₂ (fun p a => (d.bindParameter rule? r p).outcome = .ok a) ps args := by
  rw [bound, bind, bindAll_eq_mapM, Report.outcome_mapM_eq_ok]

/-- Behind a fault nothing is left of a binding, no event either. -/
theorem bind_append_of_fault {fault : Fault} (failed : d.bound rule? r ps = .error fault) :
    d.bind { parameters := ps ++ qs, body? := rule? } r =
      d.bind { parameters := ps, body? := rule? } r := by
  rw [bind_append, Report.bind_of_outcome_error failed, ← failed]
  rfl

theorem bindParameter_congr_rule {other? : Option BodyRule} (location : p.location ≠ .body) :
    d.bindParameter rule? r p = d.bindParameter other? r p := by
  unfold bindParameter
  cases place : p.location with
  | body => exact absurd place location
  | query | header | path | request => rfl

theorem bind_congr_rule {other? : Option BodyRule} (bodiless : ∀ p ∈ ps, p.location ≠ .body) :
    d.bind { parameters := ps, body? := rule? } r =
      d.bind { parameters := ps, body? := other? } r := by
  simp only [bind, bindAll_eq_mapM]
  induction ps with
  | nil => rfl
  | cons p rest ih =>
    obtain ⟨first, others⟩ := List.forall_mem_cons.mp bodiless
    rw [List.mapM_cons, List.mapM_cons, bindParameter_congr_rule first, ih others]

/-- A discriminator that cannot answer ends the binding of a body, once the content type is known
to be registered. -/
theorem outcome_bindBody_of_unanswered {schema : Schema} {fault : Fault}
    (registered : rule.registered? r = some schema) :
    (d.bindBody (some (rule.choosing fun _ => .error fault)) r p).outcome = .error fault := by
  have known : (rule.choosing fun _ => .error fault).registered? r = some schema := registered
  rw [bindBody_of_registered known, Report.outcome_bind_eq, outcome_bodySchema rfl]
  rfl

theorem bindEach_append_cons {before after : List (Parameter × Option BodyRule)}
    {e : Parameter × Option BodyRule} :
    d.bindEach r (before ++ e :: after) = (do
      let front ← d.bindEach r before
      let argument ← d.bindParameter e.2 r e.1
      let back ← d.bindEach r after
      return front ++ argument :: back) := by
  simp [bindEach, List.mapM_append, List.mapM_cons]

/-- The discriminator of a body is asked when the parameters in front of the body are bound and its
content type is registered, and only then. What stands behind the body may have the same
discriminator: it is not what decides. -/
theorem consulted_bindEach_iff {before : List (Parameter × Option BodyRule)}
    {after : Discriminator → List (Parameter × Option BodyRule)} (location : q.location = .body) :
    Discriminator.Consulted (fun choose =>
        d.bindEach r (before ++ (q, some (rule.choosing choose)) :: after choose)) ↔
      (∃ front, (d.bindEach r before).outcome = .ok front) ∧ (rule.registered? r).isSome := by
  simp only [bindEach_append_cons, bindParameter_of_body location]
  constructor
  · rintro ⟨choose, other, differ⟩
    cases bound : (d.bindEach r before).outcome with
    | error fault => simp only [Report.bind_of_outcome_error bound, ne_eq, not_true] at differ
    | ok front =>
      cases registered : rule.registered? r with
      | some schema => exact ⟨⟨front, rfl⟩, rfl⟩
      | none =>
        have unregistered (choose : Discriminator) :
            (rule.choosing choose).registered? r = none := registered
        simp only [bindBody_of_unregistered (unregistered _), Report.fail_bind, ne_eq,
          not_true] at differ
  · rintro ⟨⟨front, bound⟩, known⟩
    obtain ⟨schema, registered⟩ := Option.isSome_iff_exists.mp known
    refine ⟨fun _ => .error .json, fun _ => .error .yaml, fun same => ?_⟩
    have outcomes := congrArg Report.outcome same
    simp only [Report.outcome_bind_eq, bound, outcome_bindBody_of_unanswered registered] at outcomes
    cases outcomes

theorem consulted_bind_iff (location : q.location = .body)
    (bodiless : ∀ p ∈ ps, p.location ≠ .body) :
    Discriminator.Consulted (fun choose =>
        d.bind { parameters := ps ++ q :: qs, body? := some (rule.choosing choose) } r) ↔
      (∃ front, d.bound rule? r ps = .ok front) ∧ (rule.registered? r).isSome := by
  have cut (choose : Discriminator) :
      d.bind { parameters := ps ++ q :: qs, body? := some (rule.choosing choose) } r =
        d.bindEach r (ps.map (fun p => (p, rule?)) ++ (q, some (rule.choosing choose)) ::
          qs.map fun p => (p, some (rule.choosing choose))) := by
    rw [bind_eq_bindEach, List.map_append, List.map_cons, bindEach_append_cons,
      bindEach_append_cons, ← bind_eq_bindEach d _ r ps, ← bind_eq_bindEach d _ r ps,
      bind_congr_rule bodiless]
  simp only [cut, consulted_bindEach_iff location, ← bind_eq_bindEach]
  rfl

/-- Binding is positional and stops at the first fault. A list that is cut in two is bound to the
arguments of its two parts in a row, and its fault is the one of the front or else of the back.
Each argument is what the parameter in its place is bound to, where the request stands for itself.
Nothing behind a fault leaves a trace, and the discriminator of a body is not asked there: neither
the one of the route nor one that the body had for itself. -/
theorem binding_positional (d : Validator) (rule? : Option BodyRule) (r : Request)
    (ps qs : List Parameter) :
    (∀ args, d.bound rule? r (ps ++ qs) = .ok args ↔
      ∃ front back, d.bound rule? r ps = .ok front ∧ d.bound rule? r qs = .ok back ∧
        args = front ++ back) ∧
    (∀ fault, d.bound rule? r (ps ++ qs) = .error fault ↔
      d.bound rule? r ps = .error fault ∨
        (∃ front, d.bound rule? r ps = .ok front) ∧ d.bound rule? r qs = .error fault) ∧
    (∀ args, d.bound rule? r ps = .ok args ↔
      List.Forall₂ (fun p a => (d.bindParameter rule? r p).outcome = .ok a) ps args) ∧
    (∀ p, p.location = .request → (d.bindParameter rule? r p).outcome = .ok (.request r)) ∧
    (∀ fault, d.bound rule? r ps = .error fault →
      d.bind { parameters := ps ++ qs, body? := rule? } r =
        d.bind { parameters := ps, body? := rule? } r) ∧
    ∀ (rule : BodyRule) (q : Parameter), q.location = .body →
      (Discriminator.Consulted (fun choose => d.bindEach r (ps.map (fun p => (p, rule?)) ++
          (q, some (rule.choosing choose)) :: qs.map fun p => (p, rule?))) ↔
        (∃ front, d.bound rule? r ps = .ok front) ∧ (rule.registered? r).isSome) ∧
      ((∀ p ∈ ps, p.location ≠ .body) →
        (Discriminator.Consulted (fun choose =>
            d.bind { parameters := ps ++ q :: qs, body? := some (rule.choosing choose) } r) ↔
          (∃ front, d.bound rule? r ps = .ok front) ∧ (rule.registered? r).isSome)) := by
  refine ⟨fun args => bound_append_eq_ok, fun fault => bound_append_eq_error,
    fun args => bound_eq_ok, fun p location => ?_, fun fault => bind_append_of_fault,
    fun rule q location => ⟨?_, fun bodiless => consulted_bind_iff location bodiless⟩⟩
  · rw [bindParameter_of_request location, Report.outcome_pure]
  · rw [consulted_bindEach_iff location, ← bind_eq_bindEach]
    rfl

def tokenParameter : Parameter := { name := "token", location := .header, isRequired := true }

def rawParameter : Parameter := { name := "raw", location := .request }

/-- Behind a header that is missing nobody asks for the schema of the body; behind the request
itself somebody does. -/
theorem pet_asked_for_behind_raw :
    bound {} none {} [tokenParameter] = .error (missingParameter "token") ∧
      ¬ Discriminator.Consulted (fun choose => bind {}
        { parameters := [tokenParameter] ++ .ofBody "pet" :: [],
          body? := some (BodyRule.choosing { content := .json .any } choose) } {}) ∧
      bound {} none {} [rawParameter] = .ok [.request {}] ∧
      Discriminator.Consulted (fun choose => bind {}
        { parameters := [rawParameter] ++ .ofBody "pet" :: [],
          body? := some (BodyRule.choosing { content := .json .any } choose) } {}) := by
  have missing : bound {} none {} [tokenParameter] = .error (missingParameter "token") := rfl
  have passed : bound {} none {} [rawParameter] = .ok [.request {}] := rfl
  obtain ⟨-, -, -, -, -, behindToken⟩ := binding_positional {} none {} [tokenParameter] []
  obtain ⟨-, -, -, -, -, behindRaw⟩ := binding_positional {} none {} [rawParameter] []
  refine ⟨missing, fun asked => ?_, passed, ?_⟩
  · have bodiless : ∀ p ∈ [tokenParameter], p.location ≠ .body := by simp [tokenParameter]
    obtain ⟨⟨front, bound⟩, -⟩ :=
      ((behindToken { content := .json .any } (.ofBody "pet") rfl).2 bodiless).mp asked
    rw [missing] at bound
    cases bound
  · exact ((behindRaw { content := .json .any } (.ofBody "pet") rfl).2 (by simp [rawParameter])).mpr
      ⟨⟨_, passed⟩, rfl⟩

end Validator

end ApiContract

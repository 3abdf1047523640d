import ApiContract.Proofs.Validation.Leniency
import ApiContract.Proofs.Value.Order

/-!
Reports that agree.

Two reports `Agree` if, as long as both have an end, both accept with related results or neither
accepts. Parts that are checked in one order agree as sequences. Parts that are checked under the
same keys in another order may stop at different keys; they agree all the same, since a key at which
one of them stops is a key at which the other could not pass.
-/

namespace ApiContract

namespace Outcome

variable {α β γ δ : Type} {S : α → β → Prop} {P : α → γ → Prop} {Q : β → δ → Prop}
  {R : γ → δ → Prop}

/-- What is made of related lists one by one is related if the members are. -/
theorem forall₂_square {inputs : List α} {others : List β} {outputs : List γ}
    {otherOutputs : List δ} (related : List.Forall₂ S inputs others)
    (made : List.Forall₂ P inputs outputs) (othersMade : List.Forall₂ Q others otherOutputs)
    (keeps : ∀ a b c e, S a b → P a c → Q b e → R c e) :
    List.Forall₂ R outputs otherOutputs := by
  induction related generalizing outputs otherOutputs with
  | nil =>
    obtain rfl := List.forall₂_nil_left_iff.mp made
    obtain rfl := List.forall₂_nil_left_iff.mp othersMade
    exact .nil
  | cons first _ ih =>
    obtain ⟨c, rest, firstMade, restMade, rfl⟩ := List.forall₂_cons_left_iff.mp made
    obtain ⟨e, rest', firstMade', restMade', rfl⟩ := List.forall₂_cons_left_iff.mp othersMade
    exact .cons (keeps _ _ _ _ first firstMade firstMade') (ih restMade restMade')

theorem forall₂_zipIdx {items : List α} {others : List β} (related : List.Forall₂ S items others)
    (start : Nat) :
    List.Forall₂ (fun e f => S e.1 f.1 ∧ e.2 = f.2) (items.zipIdx start) (others.zipIdx start) := by
  induction related generalizing start with
  | nil => exact .nil
  | cons first _ ih => exact .cons ⟨first, rfl⟩ (ih (start + 1))

theorem forall₂_filterMap_id {entries : List (Option α)} {others : List (Option β)}
    (related : List.Forall₂ (Option.Rel S) entries others) :
    List.Forall₂ S (entries.filterMap id) (others.filterMap id) := by
  induction related with
  | nil => exact .nil
  | cons first _ ih =>
    cases first with
    | none => exact ih
    | some first => exact .cons first ih

end Outcome

namespace Report

variable {α β α' β' : Type} {x : Report CheckError α} {y : Report CheckError β}
  {R : α → β → Prop} {S : α' → β' → Prop}

/-- If both reports have an end, they accept with related results, or neither accepts. -/
def Agree (R : α → β → Prop) (x : Report CheckError α) (y : Report CheckError β) : Prop :=
  x.Ends → y.Ends →
    (∃ a b, x.outcome = .ok a ∧ y.outcome = .ok b ∧ R a b) ∨ ¬x.IsAccepted ∧ ¬y.IsAccepted

namespace Agree

theorem refl {R : α → α → Prop} {x : Report CheckError α} (each : ∀ a, R a a) : Agree R x x := by
  intro _ _
  cases outcome : x.outcome with
  | ok a => exact .inl ⟨a, a, rfl, rfl, each a⟩
  | error e => exact .inr (by simp [IsAccepted, outcome])

theorem of_ok {a : α} {b : β} (first : x.outcome = .ok a) (second : y.outcome = .ok b)
    (related : R a b) : Agree R x y :=
  fun _ _ => .inl ⟨a, b, first, second, related⟩

theorem of_isRefused (first : x.IsRefused) (second : y.IsRefused) : Agree R x y :=
  fun _ _ => .inr ⟨fun accepted => accepted.not_isRefused first,
    fun accepted => accepted.not_isRefused second⟩

theorem isAccepted_iff (agree : Agree R x y) (ends : x.Ends) (ends' : y.Ends) :
    x.IsAccepted ↔ y.IsAccepted := by
  rcases agree ends ends' with ⟨a, b, first, second, -⟩ | ⟨first, second⟩
  · exact ⟨fun _ => ⟨b, second⟩, fun _ => ⟨a, first⟩⟩
  · exact iff_of_false first second

theorem related (agree : Agree R x y) {a : α} {b : β} (first : x.outcome = .ok a)
    (second : y.outcome = .ok b) : R a b := by
  have ends : x.Ends := IsDecided.ends (.inl ⟨a, first⟩)
  have ends' : y.Ends := IsDecided.ends (.inl ⟨b, second⟩)
  rcases agree ends ends' with ⟨a', b', passed, passed', related⟩ | ⟨refused, -⟩
  · obtain rfl : a' = a := Except.ok.inj (passed.symm.trans first)
    obtain rfl : b' = b := Except.ok.inj (passed'.symm.trans second)
    exact related
  · exact absurd ⟨a, first⟩ refused

theorem bind {f : α → Report CheckError α'} {g : β → Report CheckError β'} (first : Agree R x y)
    (rest : ∀ a b, R a b → Agree S (f a) (g b)) : Agree S (x >>= f) (y >>= g) := by
  intro ends ends'
  rcases first ends.of_bind ends'.of_bind with ⟨a, b, passed, passed', related⟩ | ⟨stops, stops'⟩
  · have rests := rest a b related (ends.of_bind_eq_ok passed) (ends'.of_bind_eq_ok passed')
    simpa only [IsAccepted, outcome_bind_of_eq_ok passed, outcome_bind_of_eq_ok passed'] using rests
  · exact .inr ⟨fun accepted => stops accepted.of_bind, fun accepted => stops' accepted.of_bind⟩

theorem mapM {inputs : List α} {others : List β} {f : α → Report CheckError α'}
    {g : β → Report CheckError β'}
    (each : List.Forall₂ (fun a b => Agree S (f a) (g b)) inputs others) :
    Agree (List.Forall₂ S) (inputs.mapM f) (others.mapM g) := by
  induction each with
  | nil => exact .of_ok rfl rfl .nil
  | cons first _ ih =>
    rw [List.mapM_cons, List.mapM_cons]
    exact first.bind fun _ _ related => ih.bind fun _ _ others =>
      .of_ok rfl rfl (.cons related others)

end Agree

theorem Ends.exists_not_isAccepted {inputs : List α} {f : α → Report CheckError β}
    (ends : (inputs.mapM f).Ends) (stops : ¬(inputs.mapM f).IsAccepted) :
    ∃ a ∈ inputs, (f a).Ends ∧ ¬(f a).IsAccepted := by
  cases outcome : (inputs.mapM f).outcome with
  | ok outputs => exact absurd ⟨outputs, outcome⟩ stops
  | error e =>
    obtain ⟨before, a, after, rfl, -, failed⟩ := outcome_mapM_eq_error.mp outcome
    refine ⟨a, by simp, fun endless => ends ?_, by simp [IsAccepted, failed]⟩
    rw [outcome, Except.error.inj (failed.symm.trans endless)]

/-- Parts that agree under each key, in any order of the keys. -/
theorem Agree.mapM_keyed {es : Entries α} {fs : Entries β} {f : String → α → Report CheckError α'}
    {g : String → β → Report CheckError β'} (alike : Entries.Alike R es fs)
    (each : ∀ key a b, R a b → Agree S (f key a) (g key b)) :
    Agree (Entries.Alike S) (es.mapM (keyed f)) (fs.mapM (keyed g)) := by
  have entry {e : String × α} {e' : String × β} (sameKey : e'.1 = e.1) (related : R e.2 e'.2) :
      Agree (fun r r' => r'.1 = r.1 ∧ S r.2 r'.2) (keyed f e) (keyed g e') := by
    unfold keyed
    rw [sameKey]
    exact (each e.1 e.2 e'.2 related).bind fun _ _ results => .of_ok rfl rfl ⟨rfl, results⟩
  intro ends ends'
  -- A key at which one run stops is a key that the other could not have passed.
  have accepts : (es.mapM (keyed f)).IsAccepted ↔ (fs.mapM (keyed g)).IsAccepted := by
    constructor
    · intro accepted
      by_contra stops'
      obtain ⟨e', isEntry', keyEnds', keyStops'⟩ := ends'.exists_not_isAccepted stops'
      obtain ⟨e, isEntry, sameKey, related⟩ := alike.exists_left isEntry'
      have passes := isAccepted_mapM_iff.mp accepted e isEntry
      have same := (entry sameKey related).isAccepted_iff (IsDecided.ends (.inl passes)) keyEnds'
      exact keyStops' (same.mp passes)
    · intro accepted'
      by_contra stops
      obtain ⟨e, isEntry, keyEnds, keyStops⟩ := ends.exists_not_isAccepted stops
      obtain ⟨e', isEntry', sameKey, related⟩ := alike.exists_right isEntry
      have passes' := isAccepted_mapM_iff.mp accepted' e' isEntry'
      have same := (entry sameKey related).isAccepted_iff keyEnds (IsDecided.ends (.inl passes'))
      exact keyStops (same.mpr passes')
  by_cases accepted : (es.mapM (keyed f)).IsAccepted
  · obtain ⟨outputs', passed'⟩ := accepts.mp accepted
    obtain ⟨outputs, passed⟩ := accepted
    refine .inl ⟨outputs, outputs', passed, passed', fun key => ?_⟩
    simp only [outcome_mapM_eq_ok, outcome_keyed_eq_ok] at passed passed'
    have made := Entries.forall₂_under (R := fun key a r => (f key a).outcome = .ok r) passed key
    have made' := Entries.forall₂_under (R := fun key b r => (g key b).outcome = .ok r) passed' key
    exact Outcome.forall₂_square (alike key) made made' fun a b _ _ related passed passed' =>
      (each key a b related).related passed passed'
  · exact .inr ⟨accepted, mt accepts.mpr accepted⟩

end Report

end ApiContract

import ApiContract.Event

/-!
Reports: an outcome together with the events that led to it.

Reports compose in sequence; an error ends the sequence and keeps the events before it.
-/

namespace ApiContract

/-- The events of a computation and its outcome. -/
structure Report (ε α : Type) where
  log : List Event
  outcome : Except ε α

namespace Report

variable {ε ε' α β γ : Type}

def ok (a : α) : Report ε α := ⟨[], .ok a⟩

def fail (e : ε) : Report ε α := ⟨[], .error e⟩

def emit (e : Event) : Report ε Unit := ⟨[e], .ok ()⟩

protected def bind (x : Report ε α) (f : α → Report ε β) : Report ε β :=
  match x.outcome with
  | .ok a =>
    let y := f a
    ⟨x.log ++ y.log, y.outcome⟩
  | .error e => ⟨x.log, .error e⟩

instance : Monad (Report ε) where
  pure := ok
  bind := Report.bind

def ofExcept : Except ε α → Report ε α
  | .ok a => ok a
  | .error e => fail e

def mapError (f : ε → ε') (x : Report ε α) : Report ε' α :=
  match x.outcome with
  | .ok a => ⟨x.log, .ok a⟩
  | .error e => ⟨x.log, .error (f e)⟩

/-- Goes on whatever the outcome, which becomes an ordinary result. -/
def attempt (x : Report ε α) : Report ε' (Except ε α) := ⟨x.log, .ok x.outcome⟩

theorem bind_def (x : Report ε α) (f : α → Report ε β) : x >>= f = Report.bind x f := rfl

@[simp] theorem ok_eq_pure (a : α) : (ok a : Report ε α) = pure a := rfl

theorem pure_bind_report (a : α) (f : α → Report ε β) : pure a >>= f = f a := by
  simp [bind_def, Report.bind, pure, ok]

@[simp] theorem fail_bind (e : ε) (f : α → Report ε β) : fail e >>= f = fail e := by
  simp [bind_def, Report.bind, fail]

@[simp] theorem outcome_pure (a : α) : (pure a : Report ε α).outcome = .ok a := rfl

@[simp] theorem log_pure (a : α) : (pure a : Report ε α).log = [] := rfl

@[simp] theorem outcome_fail (e : ε) : (fail e : Report ε α).outcome = .error e := rfl

@[simp] theorem ofExcept_ok (a : α) : (ofExcept (.ok a) : Report ε α) = pure a := rfl

@[simp] theorem ofExcept_error (e : ε) : (ofExcept (.error e) : Report ε α) = fail e := rfl

theorem outcome_bind (x : Report ε α) (f : α → Report ε β) :
    (x >>= f).outcome = x.outcome.bind fun a => (f a).outcome := by
  obtain ⟨log, outcome⟩ := x
  cases outcome <;> rfl

theorem id_map_report (x : Report ε α) : id <$> x = x := by
  obtain ⟨log, outcome⟩ := x
  cases outcome <;> simp [Functor.map, Report.bind, ok]

theorem bind_assoc_report (x : Report ε α) (f : α → Report ε β) (g : β → Report ε γ) :
    x >>= f >>= g = x >>= fun a => f a >>= g := by
  obtain ⟨log, outcome⟩ := x
  cases outcome with
  | error e => rfl
  | ok a =>
    simp only [bind_def, Report.bind]
    cases (f a).outcome <;> simp

instance : LawfulMonad (Report ε) :=
  LawfulMonad.mk' (Report ε) id_map_report pure_bind_report bind_assoc_report

end Report

end ApiContract

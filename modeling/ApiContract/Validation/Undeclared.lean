import ApiContract.Validation.Basic

/-!
What happens to the keys of an object that its schema does not declare.
-/

namespace ApiContract

inductive Fate (σ : Type) where
  /-- The object is turned down. -/
  | reject
  /-- The keys are left out and logged. -/
  | warn
  | copy
  /-- The values are checked against a schema. -/
  | check (node : σ)
  | drop
deriving DecidableEq

/-- Chooses the fate of some undeclared keys. The first rule that applies wins: keys that are
forbidden are judged where switches ask for it; keys that are allowed are copied where others would
be rejected; a schema for them is used; anything else is judged as forbidden keys are. -/
def Additional.fate {σ : Type} (rule : Additional σ) (switches : Switches) (parent : Parent)
    (keys : List String) : Fate σ :=
  let judged := parent ≠ .allOf ∧ switches.isStrict
  let verdict : Fate σ := if switches.rejectUndeclared then .reject else .warn
  let otherwise : Fate σ := if judged then verdict else .drop
  if keys = [] then .drop
  else
    match rule with
    | .allowed true => if switches.rejectUndeclared then .copy else otherwise
    | .schema node => .check node
    | _ => otherwise

end ApiContract

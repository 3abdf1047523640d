import ApiContract.Binding.Binder
import ApiContract.Proofs.Report

/-!
How a body comes to be bound.

The content type of the request has to be registered, and where there is a discriminator it has to
answer with a name. Whether there is a body is looked at only then.
-/

namespace ApiContract

/-- A parameter that takes the body of a request, if there is one. -/
def Parameter.ofBody (name : String) : Parameter := { name, location := .body }

@[simp] theorem Parameter.location_ofBody (name : String) : (ofBody name).location = .body := rfl

/-- The schema that is registered for the content type of a request. -/
def BodyRule.registered? (rule : BodyRule) (r : Request) : Option Schema :=
  rule.content.schemaFor? (r.contentType?.getD defaultContentType)

def argumentOf (checked : Except CheckError Value) : Except Fault Argument :=
  (checked.map .value).mapError (CheckError.toFault .client)

@[simp] theorem argumentOf_ok (w : Value) : argumentOf (.ok w) = .ok (.value w) := rfl

@[simp] theorem argumentOf_error (e : CheckError) :
    argumentOf (.error e) = .error (e.toFault .client) := rfl

theorem argumentOf_ne_undefined (checked : Except CheckError Value) :
    argumentOf checked ≠ .ok .undefined := by
  cases checked <;> simp

theorem Parameter.outcome_absent (p : Parameter) :
    p.absent.outcome =
      if p.isRequired then .error (missingParameter p.name) else .ok .undefined := by
  unfold absent
  split <;> rfl

namespace Validator

variable {d : Validator} {rule? : Option BodyRule} {rule : BodyRule} {r : Request} {p : Parameter}
  {schema : Schema} {root : String} {v : Value}

@[simp] theorem outcome_accept : (d.accept root v schema).outcome =
    argumentOf (d.validate { root } v schema .unknown).outcome := by
  unfold accept
  rw [Report.outcome_bind_eq, Report.outcome_mapError]
  cases (d.validate { root } v schema .unknown).outcome <;> rfl

def bindChosen (d : Validator) (r : Request) (p : Parameter) (schema : Schema) :
    Report Fault Argument :=
  match r.body? with
  | none => p.absent
  | some body => d.forPayload.accept bodyRoot body schema

theorem bindChosen_of_absent (absent : r.body? = none) : d.bindChosen r p schema = p.absent := by
  rw [bindChosen, absent]

theorem bindChosen_of_present (present : r.body? = some v) :
    d.bindChosen r p schema = d.forPayload.accept bodyRoot v schema := by
  rw [bindChosen, present]

theorem bindBody_of_registered (registered : rule.registered? r = some schema) :
    d.bindBody (some rule) r p = bodySchema rule r schema >>= d.bindChosen r p := by
  unfold BodyRule.registered? at registered
  unfold bindBody
  simp only [registered]
  rfl

theorem bindBody_of_unregistered (unregistered : rule.registered? r = none) :
    d.bindBody (some rule) r p = Report.fail
      (contentTypeNotAllowed .client p.name (r.contentType?.getD defaultContentType)) := by
  unfold BodyRule.registered? at unregistered
  unfold bindBody
  simp only [unregistered]

theorem bodySchema_of_plain (plain : rule.discriminator? = none) :
    bodySchema rule r schema = pure schema := by
  rw [bodySchema, plain]

theorem outcome_bodySchema {choose : Discriminator} (chooses : rule.discriminator? = some choose) :
    (bodySchema rule r schema).outcome = (choose r).map Schema.reference := by
  rw [bodySchema, chooses]
  simp only [Report.outcome_bind_eq, Report.outcome_ofExcept, Report.outcome_emit,
    Report.outcome_pure]
  cases choose r <;> rfl

theorem bindParameter_of_body (location : p.location = .body) :
    d.bindParameter rule? r p = d.bindBody rule? r p := by
  rw [bindParameter, location]

theorem bindParameter_of_request (location : p.location = .request) :
    d.bindParameter rule? r p = pure (.request r) := by
  rw [bindParameter, location, Report.ok_eq_pure]

end Validator

end ApiContract

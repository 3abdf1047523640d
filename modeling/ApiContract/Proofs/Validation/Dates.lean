import ApiContract.Proofs.Calendar.Text
import ApiContract.Proofs.Validation.Acceptance
import ApiContract.Proofs.Validation.Recursion
import ApiContract.Value.Json

/-!
Dates on the wire.

An instant is sent as its text, whichever way it is written. A rule for dates that asks for nothing
else reads that text back as the instant, but for the digits that the text does not show.
-/

namespace ApiContract.Validator

open Calendar

variable {d : Validator} {path : Path} {schema target : Schema} {parent : Parent}

theorem validate_eq_ok_date {rule : StringRule} {s : String} {t : Instant}
    (resolved : d.document.resolve schema = .ok target) (shape : target.shape = .string rule)
    (isDate : rule.isDate = true) (passes : rule.violation? s = none)
    (read : Instant.ofText? s = some t) :
    (d.validate path (.string s) schema parent).outcome = .ok (.date t) := by
  have coerced : rule.coerce (.string s) = .ok (.date t) :=
    StringRule.coerce_eq_ok_iff.mpr (.instant passes isDate read)
  rw [validate_outcome]
  apply step_eq_ok.mpr
  exact ⟨target, resolved, .inr ⟨rfl, .string shape coerced⟩⟩

/-- An instant in one of the years from 0 to 9999 is sent as one text, which is read back as the
instant without the digits after the milliseconds. So a date or date-time schema without other
conditions accepts the text as that instant. -/
theorem date_survives (t : Instant) (least : 0 ≤ t.year) (most : t.year ≤ 9999) :
    ∃ s, Value.toJson (.date t) = .string s ∧ Value.write (.date t) = Json.quote s ∧
      Instant.ofText? s = some t.truncated ∧
      ∀ (d : Validator) path schema target format parent,
        d.document.resolve schema = .ok target →
        target.shape = .string { format := some format } →
        format = "date" ∨ format = "date-time" →
        (d.validate path (.string s) schema parent).outcome = .ok (.date t.truncated) := by
  have read := Instant.ofText?_text t least most
  refine ⟨t.text, by rw [Value.toJson], by rw [Value.write], read, ?_⟩
  intro d path schema target format parent resolved shape isFormat
  have isDate : StringRule.isDate { format := some format } = true := by
    rcases isFormat with rfl | rfl <;> rfl
  exact validate_eq_ok_date resolved shape isDate rfl read

def leapSecond : Instant := ⟨1483228799, 1123456789, by decide⟩

theorem leapSecond_survives :
    0 ≤ leapSecond.year ∧ leapSecond.year ≤ 9999 ∧
      leapSecond.truncated = ⟨1483228799, 1123000000, by decide⟩ ∧
      ∃ s, Value.toJson (.date leapSecond) = .string s ∧
        Instant.ofText? s = some leapSecond.truncated ∧
        (({} : Validator).validate ⟨"q", []⟩ (.string s) (.stringFormat "date") .unknown).outcome =
          .ok (.date leapSecond.truncated) := by
  have least : 0 ≤ leapSecond.year := by decide
  have most : leapSecond.year ≤ 9999 := by decide
  obtain ⟨s, sent, -, read, accepted⟩ := date_survives leapSecond least most
  refine ⟨least, most, rfl, s, sent, read, ?_⟩
  exact accepted {} _ (.stringFormat "date") _ "date" _ rfl rfl (.inl rfl)

end ApiContract.Validator

import ApiContract.Proofs.Binding.Bodies
import ApiContract.Proofs.Binding.Parts
import ApiContract.Proofs.Document.References

/-!
Parameters that a request leaves out.

A parameter is left out if no part of the request gives it a value. What stands for it then is for
the parameter alone to say, once its own checks are done: the schema of a text has to resolve, and a
body has to be of a registered content type, with a name for its schema from the discriminator.
These checks come first. A request without a body has a content type all the same, the default one,
and is turned down where that is not registered.
-/

namespace ApiContract

/-- Whether a part gives a value to a parameter. -/
def Request.Part.Supplies (part : Request.Part) (p : Parameter) : Prop :=
  match p.location with
  | .body => part.body?.isSome
  | location => (part.text? location p.name).isSome

namespace Request

/-- The raw value that a request has for a parameter. -/
def value? (r : Request) (p : Parameter) : Option Value :=
  match p.location with
  | .body => r.body?
  | location => r.raw? location p.name

theorem value?_ofParts_eq_none_iff {parts : List Request.Part} {p : Parameter} :
    (ofParts parts).value? p = none ↔ ∀ part ∈ parts, ¬ part.Supplies p := by
  unfold value? Request.Part.Supplies
  cases p.location with
  | body => simp [body?_ofParts_eq_none_iff]
  | query | header | path | request => simp [raw?_ofParts_eq_none_iff]

end Request

/-- A rejection that tells a client that a parameter is missing. -/
def Fault.TellsMissing (name : String) (fault : Fault) : Prop :=
  ∃ rejection entry, fault = .rejected rejection ∧ rejection.severity = .client ∧
    rejection.summary.message = "Missing parameter" ∧ rejection.fields = [(name, entry)] ∧
    entry.reason.message = "Param is required" ∧ entry.value = none

theorem Fault.tellsMissing_missingParameter (name : String) :
    (missingParameter name).TellsMissing name :=
  ⟨_, _, rfl, rfl, rfl, rfl, rfl, rfl⟩

namespace Validator

variable {d : Validator} {rule? : Option BodyRule} {r : Request} {p : Parameter} {v : Value}

/-- Whether nothing but the value of a parameter is left to look at. -/
def Ready (d : Validator) (rule? : Option BodyRule) (r : Request) (p : Parameter) : Prop :=
  match p.location with
  | .request => False
  | .body => ∃ rule schema, rule? = some rule ∧ rule.registered? r = some schema ∧
      ∀ choose, rule.discriminator? = some choose → ∃ name, choose r = .ok name
  | _ => d.document.Resolves p.schema

theorem exists_bodySchema_eq_ok {rule : BodyRule} {schema : Schema}
    (answers : ∀ choose, rule.discriminator? = some choose → ∃ name, choose r = .ok name) :
    ∃ chosen, (bodySchema rule r schema).outcome = .ok chosen := by
  cases chooses : rule.discriminator? with
  | none => exact ⟨schema, by rw [bodySchema_of_plain chooses, Report.outcome_pure]⟩
  | some choose =>
    obtain ⟨name, answered⟩ := answers choose chooses
    exact ⟨.reference name, by rw [outcome_bodySchema chooses, answered]; rfl⟩

theorem outcome_bindText_of_absent (resolves : d.document.Resolves p.schema)
    (absent : r.raw? p.location p.name = none) :
    (d.bindText r p).outcome = p.absent.outcome := by
  obtain ⟨target, resolved⟩ := resolves
  rw [bindText, resolved]
  simp only [Except.mapError, Report.ofExcept_ok, pure_bind, absent]

theorem outcome_bindText_ne_undefined (present : r.raw? p.location p.name = some v) :
    (d.bindText r p).outcome ≠ .ok .undefined := by
  unfold bindText
  cases d.document.resolve p.schema with
  | error cause => simp [Except.mapError]
  | ok target =>
    simp only [Except.mapError, Report.ofExcept_ok, pure_bind, present, outcome_accept]
    exact argumentOf_ne_undefined _

theorem outcome_bindBody_ne_undefined (present : r.body? = some v) :
    (d.bindBody rule? r p).outcome ≠ .ok .undefined := by
  cases rule? with
  | none => simp [bindBody]
  | some rule =>
    cases registered : rule.registered? r with
    | none => simp [bindBody_of_unregistered registered]
    | some schema =>
      rw [bindBody_of_registered registered]
      intro undefined
      obtain ⟨chosen, -, bound⟩ := Report.outcome_bind_eq_ok.mp undefined
      rw [bindChosen_of_present present, outcome_accept] at bound
      exact argumentOf_ne_undefined _ bound

/-- What stands for a parameter that is left out. -/
theorem outcome_bindParameter_of_absent (ready : d.Ready rule? r p) (absent : r.value? p = none) :
    (d.bindParameter rule? r p).outcome = p.absent.outcome := by
  unfold Ready at ready
  unfold Request.value? at absent
  cases location : p.location with
  | request => simp [location] at ready
  | body =>
    simp only [location] at ready absent
    obtain ⟨rule, schema, rfl, registered, answers⟩ := ready
    obtain ⟨chosen, chooses⟩ := exists_bodySchema_eq_ok answers
    rw [bindParameter_of_body location, bindBody_of_registered registered,
      Report.outcome_bind_of_eq_ok chooses, bindChosen_of_absent absent]
  | query | header | path =>
    have texts : p.location.HoldsTexts := by simp [Location.HoldsTexts, location]
    simp only [location] at ready absent
    rw [bindParameter_eq_bindText texts]
    exact outcome_bindText_of_absent ready (by rw [location, absent])

/-- A value that is there is bound to something, whatever comes of the checks. -/
theorem outcome_bindParameter_ne_undefined (present : r.value? p = some v) :
    (d.bindParameter rule? r p).outcome ≠ .ok .undefined := by
  unfold Request.value? at present
  cases location : p.location with
  | request => simp [bindParameter_of_request location]
  | body =>
    simp only [location] at present
    rw [bindParameter_of_body location]
    exact outcome_bindBody_ne_undefined present
  | query | header | path =>
    have texts : p.location.HoldsTexts := by simp [Location.HoldsTexts, location]
    simp only [location] at present
    rw [bindParameter_eq_bindText texts]
    exact outcome_bindText_ne_undefined (by rw [location, present])

/-- A parameter that no part of a request gives a value to is bound to nothing where it is optional,
and is told to be missing where it is required, once its own checks are done. For a body one of them
is that the content type is registered: it is turned down before anybody looks for the body. A value
that is given is never bound to nothing, checks or no checks. -/
theorem absence_told_when_ready (d : Validator) (rule? : Option BodyRule)
    (parts : List Request.Part) (p : Parameter) :
    (d.Ready rule? (Request.ofParts parts) p → (∀ part ∈ parts, ¬ part.Supplies p) →
      (p.isRequired = false →
        (d.bindParameter rule? (Request.ofParts parts) p).outcome = .ok .undefined) ∧
      (p.isRequired = true → ∃ fault, fault.TellsMissing p.name ∧
        (d.bindParameter rule? (Request.ofParts parts) p).outcome = .error fault)) ∧
    (∀ rule, p.location = .body → rule? = some rule →
      rule.registered? (Request.ofParts parts) = none →
        (d.bindParameter rule? (Request.ofParts parts) p).outcome =
          .error (contentTypeNotAllowed .client p.name
            ((Request.ofParts parts).contentType?.getD defaultContentType))) ∧
    ((∃ part ∈ parts, part.Supplies p) →
      (d.bindParameter rule? (Request.ofParts parts) p).outcome ≠ .ok .undefined) := by
  refine ⟨fun ready unsupplied => ?_, fun rule location described unregistered => ?_,
    fun ⟨part, isPart, supplies⟩ => ?_⟩
  · have absent := Request.value?_ofParts_eq_none_iff.mpr unsupplied
    rw [outcome_bindParameter_of_absent ready absent, Parameter.outcome_absent]
    constructor
    · intro optional
      rw [optional]
      rfl
    · intro required
      exact ⟨_, Fault.tellsMissing_missingParameter p.name, if_pos required⟩
  · rw [bindParameter_of_body location, described, bindBody_of_unregistered unregistered,
      Report.outcome_fail]
  · cases present : (Request.ofParts parts).value? p with
    | none => exact absurd supplies (Request.value?_ofParts_eq_none_iff.mp present part isPart)
    | some v => exact outcome_bindParameter_ne_undefined present

def noteParameter : Parameter := .ofBody "note"

def noteRule : BodyRule := { content := [("text/plain", .string)] }

def traceParameter : Parameter := { name := "X-Trace", location := .header, schema := .string }

/-- A request that says what its note would be is bound without one, and the trace is found under
the name in lower case. -/
theorem absent_note_bound :
    Ready {} (some noteRule)
        (Request.ofParts [.contentType "Text/Plain; charset=utf-8", .header "x-trace" "7"])
        noteParameter ∧
      (bindParameter {} (some noteRule)
        (Request.ofParts [.contentType "Text/Plain; charset=utf-8", .header "x-trace" "7"])
        noteParameter).outcome = .ok .undefined ∧
      (bindParameter {} (some noteRule)
        (Request.ofParts [.contentType "Text/Plain; charset=utf-8", .header "x-trace" "7"])
        traceParameter).outcome ≠ .ok .undefined := by
  have sameType : mediaType "text/plain" = mediaType "Text/Plain; charset=utf-8" := by
    decide +kernel
  have registered : noteRule.registered?
      (Request.ofParts [.contentType "Text/Plain; charset=utf-8", .header "x-trace" "7"]) =
        some .string := by
    simp [BodyRule.registered?, Request.contentType?, Request.ofParts, Request.add,
      Request.setContentType, Request.setHeader, noteRule, Content.schemaFor?, sameType]
  have ready : Ready {} (some noteRule)
      (Request.ofParts [.contentType "Text/Plain; charset=utf-8", .header "x-trace" "7"])
      noteParameter := ⟨noteRule, .string, rfl, registered, by simp [noteRule]⟩
  have unsupplied : ∀ part ∈ [.contentType "Text/Plain; charset=utf-8", .header "x-trace" "7"],
      ¬Request.Part.Supplies part noteParameter := by
    simp [Request.Part.Supplies, noteParameter, Request.Part.body?]
  have supplied : (Request.Part.header "x-trace" "7").Supplies traceParameter := by
    have traced : ((Request.Part.header "x-trace" "7").text? .header "X-Trace").isSome = true := by
      decide
    exact traced
  obtain ⟨leftOut, -, -⟩ := absence_told_when_ready {} (some noteRule)
    [.contentType "Text/Plain; charset=utf-8", .header "x-trace" "7"] noteParameter
  obtain ⟨-, -, given⟩ := absence_told_when_ready {} (some noteRule)
    [.contentType "Text/Plain; charset=utf-8", .header "x-trace" "7"] traceParameter
  exact ⟨ready, (leftOut ready unsupplied).1 rfl, given ⟨_, by simp, supplied⟩⟩

/-- A request of no parts at all has no note, and is turned down for a content type that it does not
tell. -/
theorem absent_note_refused :
    (∀ part ∈ ([] : List Request.Part), ¬ part.Supplies noteParameter) ∧
      noteParameter.isRequired = false ∧
      (bindParameter {} (some noteRule) (Request.ofParts []) noteParameter).outcome =
        .error (contentTypeNotAllowed .client "note" "application/json") ∧
      (bindParameter {} (some noteRule) (Request.ofParts []) noteParameter).outcome ≠
        .ok .undefined := by
  have refused : (bindParameter {} (some noteRule) (Request.ofParts []) noteParameter).outcome =
      .error (contentTypeNotAllowed .client "note" "application/json") := rfl
  refine ⟨by simp, rfl, refused, ?_⟩
  rw [refused]
  simp

end Validator

end ApiContract

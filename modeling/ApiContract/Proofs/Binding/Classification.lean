import ApiContract.Binding.Binder
import ApiContract.Binding.Response
import ApiContract.Proofs.Validation.Addressing
import ApiContract.Proofs.Validation.Recursion
import ApiContract.Proofs.Validation.Soundness

/-!
Whose fault a rejected request or response is.

A sound route names only schemas whose references resolve, so what stops a binding is never a fault
of a schema: it is a rejection of the client with one field at the parameter. What stops a response
is never the client's.
-/

namespace ApiContract

def IsUnder (root field : String) : Prop := field = root ∨ ∃ rest, field = root ++ "." ++ rest

theorem Path.text_isUnder_root (p : Path) : IsUnder p.root p.text := by
  rw [text_eq_intercalate]
  cases p.segments with
  | nil => exact .inl (by simp)
  | cons s steps => exact .inr ⟨_, by rw [List.map_cons, String.intercalate_cons_cons]⟩

/-- A rejection of one severity with a single field. -/
def Fault.IsRejection (severity : Severity) (owns : String → Prop) (fault : Fault) : Prop :=
  ∃ rejection field entry, fault = .rejected rejection ∧ rejection.severity = severity ∧
    rejection.fields = [(field, entry)] ∧ owns field

theorem Fault.IsRejection.mono {severity : Severity} {owns others : String → Prop} {fault : Fault}
    (rejected : fault.IsRejection severity owns) (imp : ∀ field, owns field → others field) :
    fault.IsRejection severity others := by
  obtain ⟨rejection, field, entry, isRejection, sameSeverity, single, owned⟩ := rejected
  exact ⟨rejection, field, entry, isRejection, sameSeverity, single, imp field owned⟩

theorem Fault.IsRejection.status_eq {severity : Severity} {owns : String → Prop} {fault : Fault}
    (rejected : fault.IsRejection severity owns) : fault.status = severity.status := by
  obtain ⟨rejection, _, _, rfl, rfl, _, _⟩ := rejected
  rfl

/-- The fields that may be blamed on a parameter: its name and what is below, and for a body its
root and what is below. -/
def Parameter.Owns (p : Parameter) (field : String) : Prop :=
  IsUnder p.name field ∨ (p.location = .body ∧ IsUnder bodyRoot field)

/-- What a route has to promise: its schemas use only references that resolve, bodies are described,
and a discriminator answers with the name of a schema. -/
structure Route.Sound (document : Document) (route : Route) : Prop where
  parameters : ∀ p ∈ route.parameters, document.Closed p.schema
  contents : ∀ rule, route.body? = some rule → ∀ e ∈ rule.content, document.Closed e.2
  described : ∀ p ∈ route.parameters, p.location = .body → ∃ rule, route.body? = some rule
  discriminates : ∀ rule choose, route.body? = some rule → rule.discriminator? = some choose →
    ∀ request, ∃ name target, choose request = .ok name ∧
      document.resolve (.reference name) = .ok target

theorem missingParameter_isRejection (p : Parameter) :
    (missingParameter p.name).IsRejection .client p.Owns :=
  ⟨_, _, _, rfl, rfl, rfl, .inl (.inl rfl)⟩

theorem contentTypeNotAllowed_isRejection (severity : Severity) (name contentType : String) :
    (contentTypeNotAllowed severity name contentType).IsRejection severity (IsUnder name) :=
  ⟨_, _, _, rfl, rfl, rfl, .inl rfl⟩

theorem Content.mem_of_schemaFor? {content : Content} {contentType : String} {schema : Schema}
    (found : content.schemaFor? contentType = some schema) : ∃ e ∈ content, e.2 = schema := by
  obtain ⟨e, isFirst, rfl⟩ := Option.map_eq_some_iff.mp found
  exact ⟨e, List.mem_of_find?_eq_some isFirst, rfl⟩

namespace Validator

variable {d : Validator} {fault : Fault}

theorem toFault_isRejection {path : Path} {v : Value} {schema : Schema} {parent : Parent}
    {failure : Failure} (severity : Severity)
    (failed : (d.validate path v schema parent).outcome = .error (.invalid failure)) :
    (CheckError.toFault severity (.invalid failure)).IsRejection severity (IsUnder path.root) := by
  obtain ⟨steps, place, -⟩ := addresses_validate d _ _ _ _ _ failed
  have atRoot : failure.path.root = path.root := by rw [place, Path.root_below]
  exact ⟨_, _, _, rfl, rfl, rfl, atRoot ▸ failure.path.text_isUnder_root⟩

theorem accept_isRejection {root : String} {v : Value} {schema : Schema}
    (checked : d.document.checkReferences = .ok ()) (closed : d.document.Closed schema)
    (failed : (d.accept root v schema).outcome = .error fault) (ends : fault ≠ .endless) :
    fault.IsRejection .client (IsUnder root) := by
  unfold accept at failed
  simp only [Report.outcome_bind_eq_error, Report.outcome_mapError, Report.outcome_pure,
    reduceCtorEq, and_false, exists_false, or_false] at failed
  cases outcome : (d.validate { root } v schema .unknown).outcome with
  | ok w => simp [outcome, Except.mapError] at failed
  | error e =>
    obtain rfl : e.toFault .client = fault := by simpa [outcome, Except.mapError] using failed
    cases e with
    | invalid failure => exact toFault_isRejection .client outcome
    | schema cause => exact absurd outcome (validate_ne_schema checked closed _ _ _ _)
    | endless => exact absurd rfl ends

theorem bindText_isRejection {request : Request} {p : Parameter}
    (checked : d.document.checkReferences = .ok ()) (closed : d.document.Closed p.schema)
    (failed : (d.bindText request p).outcome = .error fault) (ends : fault ≠ .endless) :
    fault.IsRejection .client p.Owns := by
  obtain ⟨target, resolved⟩ := closed.resolves
  unfold bindText at failed
  simp only [resolved, Except.mapError, Report.ofExcept_ok, pure_bind] at failed
  cases present : request.raw? p.location p.name with
  | none =>
    simp only [present, Parameter.absent] at failed
    split at failed
    · obtain rfl : missingParameter p.name = fault := by simpa using failed
      exact missingParameter_isRejection p
    · simp at failed
  | some raw =>
    simp only [present] at failed
    exact (accept_isRejection checked closed failed ends).mono fun _ => .inl

/-- A body is checked against a schema whose references resolve. -/
theorem bodySchema_closed {route : Route} {rule : BodyRule} {registered : Schema}
    (request : Request) (sound : route.Sound d.document) (described : route.body? = some rule)
    (isRegistered : ∃ e ∈ rule.content, e.2 = registered) :
    ∃ schema, (bodySchema rule request registered).outcome = .ok schema ∧
      d.document.Closed schema := by
  unfold bodySchema
  cases chosen : rule.discriminator? with
  | none =>
    obtain ⟨e, membership, rfl⟩ := isRegistered
    exact ⟨e.2, rfl, sound.contents rule described e membership⟩
  | some choose =>
    obtain ⟨name, target, answer, resolved⟩ :=
      sound.discriminates rule choose described chosen request
    refine ⟨.reference name, ?_, .of_isReference ⟨name, rfl⟩ ⟨target, resolved⟩⟩
    simp [answer, Except.map]

theorem bindBody_isRejection {route : Route} {request : Request} {p : Parameter}
    (checked : d.document.checkReferences = .ok ()) (sound : route.Sound d.document)
    (isParameter : p ∈ route.parameters) (isBody : p.location = .body)
    (failed : (d.bindBody route.body? request p).outcome = .error fault) (ends : fault ≠ .endless) :
    fault.IsRejection .client p.Owns := by
  obtain ⟨rule, described⟩ := sound.described p isParameter isBody
  unfold bindBody at failed
  simp only [described] at failed
  cases registered : rule.content.schemaFor? (request.contentType?.getD defaultContentType) with
  | none =>
    simp only [registered, Report.outcome_fail, Except.error.injEq] at failed
    subst failed
    exact (contentTypeNotAllowed_isRejection ..).mono fun _ => .inl
  | some schema =>
    simp only [registered] at failed
    obtain ⟨chosen, choice, closed⟩ :=
      bodySchema_closed request sound described (Content.mem_of_schemaFor? registered)
    rw [Report.outcome_bind_eq_error] at failed
    simp only [choice, reduceCtorEq, Except.ok.injEq, false_or, exists_eq_left'] at failed
    cases present : request.body? with
    | none =>
      simp only [present, Parameter.absent] at failed
      split at failed
      · obtain rfl : missingParameter p.name = fault := by simpa using failed
        exact missingParameter_isRejection p
      · simp at failed
    | some body =>
      simp only [present] at failed
      exact (accept_isRejection (d := d.forPayload) checked closed failed ends).mono
        fun _ under => .inr ⟨isBody, under⟩

theorem bindParameter_isRejection {route : Route} {request : Request} {p : Parameter}
    (checked : d.document.checkReferences = .ok ()) (sound : route.Sound d.document)
    (isParameter : p ∈ route.parameters)
    (failed : (d.bindParameter route.body? request p).outcome = .error fault)
    (ends : fault ≠ .endless) : fault.IsRejection .client p.Owns := by
  have closed := sound.parameters p isParameter
  unfold bindParameter at failed
  cases location : p.location with
  | request => simp [location] at failed
  | body =>
    exact bindBody_isRejection checked sound isParameter location
      (by simpa [location] using failed) ends
  | query => exact bindText_isRejection checked closed (by simpa [location] using failed) ends
  | header => exact bindText_isRejection checked closed (by simpa [location] using failed) ends
  | path => exact bindText_isRejection checked closed (by simpa [location] using failed) ends

/-- The fault of a binding is the fault of one of its parameters. -/
theorem exists_of_bindAll_error {rule? : Option BodyRule} {request : Request}
    {ps : List Parameter} (failed : (d.bindAll rule? request ps).outcome = .error fault) :
    ∃ p ∈ ps, (d.bindParameter rule? request p).outcome = .error fault := by
  induction ps with
  | nil => simp [bindAll] at failed
  | cons p rest ih =>
    unfold bindAll at failed
    simp only [Report.outcome_bind_eq_error, Report.outcome_pure, reduceCtorEq, and_false,
      exists_false, or_false] at failed
    rcases failed with first | ⟨_, -, later⟩
    · exact ⟨p, List.mem_cons_self, first⟩
    · obtain ⟨q, membership, failed⟩ := ih later
      exact ⟨q, List.mem_cons_of_mem _ membership, failed⟩

theorem reportMismatch_error {α : Type} {status : Nat} {x : Report CheckError α}
    (failed : (reportMismatch status x).outcome = .error fault) :
    ∃ e, x.outcome = .error e ∧ e.toFault .server = fault := by
  unfold reportMismatch at failed
  cases outcome : x.outcome with
  | ok a => simp [outcome] at failed
  | error e => exact ⟨e, rfl, by simpa [outcome] using failed⟩

theorem validateResponse_error {rules : Responses} {status : Nat} {contentType? : Option String}
    {payload? : Option Value} (ends : fault ≠ .endless)
    (failed : (d.validateResponse rules status contentType? payload?).outcome = .error fault) :
    (∃ cause, fault = .schema cause) ∨ fault.IsRejection .server (IsUnder responseRoot) := by
  unfold validateResponse at failed
  rcases Report.outcome_bind_eq_error.mp failed with unknown | ⟨content, -, failed⟩
  · cases found : rules.lookup status with
    | ok content => simp [found, Except.mapError] at unknown
    | error cause => exact .inl ⟨cause, by simpa [found, Except.mapError, eq_comm] using unknown⟩
  cases registered : content.schemaFor? (contentType?.getD defaultContentType) with
  | none =>
    simp only [registered] at failed
    split at failed
    · simp at failed
    · obtain rfl : contentTypeNotAllowed .server responseRoot
          (contentType?.getD defaultContentType) = fault := by
        simpa [Report.outcome_bind_eq_error] using failed
      exact .inr (contentTypeNotAllowed_isRejection ..)
  | some schema =>
    simp only [registered, Report.outcome_bind_eq_error, Report.outcome_pure, reduceCtorEq,
      and_false, exists_false, or_false] at failed
    obtain ⟨e, stopped, rfl⟩ := reportMismatch_error failed
    cases e with
    | invalid failure => exact .inr (toFault_isRejection .server stopped)
    | schema cause => exact .inl ⟨cause, rfl⟩
    | endless => exact absurd rfl ends

/-- For a sound route over a checked document, what stops a binding that ends is a rejection of the
client with one field at a parameter. What stops the check of a response that ends is a fault of a
schema or a rejection of the server with one field at the response. -/
theorem faults_classified (d : Validator) :
    (d.document.checkReferences = .ok () →
      ∀ (route : Route) (request : Request), route.Sound d.document →
        (d.bind route request).outcome ≠ .error .endless →
        (∃ arguments, (d.bind route request).outcome = .ok arguments) ∨
          ∃ p ∈ route.parameters, ∃ fault, (d.bind route request).outcome = .error fault ∧
            fault.IsRejection .client p.Owns ∧ fault.status = 400) ∧
      ∀ (rules : Responses) (status : Nat) (contentType? : Option String) (payload? : Option Value),
        (d.validateResponse rules status contentType? payload?).outcome ≠ .error .endless →
        (∃ checked?, (d.validateResponse rules status contentType? payload?).outcome =
            .ok checked?) ∨
          (∃ cause, (d.validateResponse rules status contentType? payload?).outcome =
            .error (.schema cause)) ∨
          ∃ fault, (d.validateResponse rules status contentType? payload?).outcome = .error fault ∧
            fault.IsRejection .server (IsUnder responseRoot) ∧ fault.status = 500 := by
  constructor
  · intro checked route request sound ends
    cases outcome : (d.bind route request).outcome with
    | ok arguments => exact .inl ⟨arguments, rfl⟩
    | error fault =>
      have fails : fault ≠ .endless := by
        rintro rfl
        exact ends outcome
      obtain ⟨p, isParameter, failed⟩ := exists_of_bindAll_error outcome
      have rejected := bindParameter_isRejection checked sound isParameter failed fails
      exact .inr ⟨p, isParameter, fault, rfl, rejected, rejected.status_eq⟩
  · intro rules status contentType? payload? ends
    cases outcome : (d.validateResponse rules status contentType? payload?).outcome with
    | ok checked? => exact .inl ⟨checked?, rfl⟩
    | error fault =>
      have fails : fault ≠ .endless := by
        rintro rfl
        exact ends outcome
      rcases validateResponse_error fails outcome with ⟨cause, rfl⟩ | rejected
      · exact .inr (.inl ⟨cause, rfl⟩)
      · exact .inr (.inr ⟨fault, rfl, rejected, rejected.status_eq⟩)

def petRoute : Route where
  parameters := [
    { name := "verbose", location := .query, schema := .boolean },
    { name := "pet", location := .body, isRequired := true }]
  body? := some {
    content := Content.json (.reference "Alias"), discriminator? := some fun _ => .ok "Pet" }

def petRequest : Request where
  queries := [("verbose", ["no"])]
  body? := some (.object [("name", .bool true)])

theorem petRoute_sound : petRoute.Sound petDocument where
  parameters := by
    intro p isParameter
    have leaf : p.schema = .boolean ∨ p.schema = .any := by
      rcases List.mem_cons.mp isParameter with rfl | isParameter
      · exact .inl rfl
      · obtain rfl := List.mem_singleton.mp isParameter
        exact .inr rfl
    rcases leaf with leaf | leaf <;> rw [leaf]
    · exact Document.closed_of_children_eq_nil rfl fun ⟨_, shape⟩ => nomatch shape
    · exact Document.closed_of_children_eq_nil rfl fun ⟨_, shape⟩ => nomatch shape
  contents := by
    rintro rule described e membership
    obtain rfl := Option.some.inj described
    obtain rfl := List.mem_singleton.mp membership
    exact .of_isReference ⟨"Alias", rfl⟩ ⟨_, rfl⟩
  described := fun _ _ _ => ⟨_, rfl⟩
  discriminates := by
    rintro rule choose described chosen request
    obtain rfl := Option.some.inj described
    obtain rfl := Option.some.inj chosen
    exact ⟨"Pet", _, rfl, rfl⟩

def flagResponses : Responses := [("2XX", Content.json .boolean)]

theorem flag_refused (d : Validator) (root : String) :
    (d.validate { root } (.string "no") .boolean .unknown).outcome =
      .error (.invalid (.echoing { root } .notBoolean (.string "no"))) := by
  have checked : (d.checkWithin 1 1 { root } (.string "no") .boolean .unknown).outcome =
      .error (.invalid (.echoing { root } .notBoolean (.string "no"))) := rfl
  exact validate_outcome_of_checkWithin checked (by simp)

theorem petRoute_faults_classified :
    (∃ p ∈ petRoute.parameters, ∃ fault,
        (bind { document := petDocument } petRoute petRequest).outcome = .error fault ∧
          fault.IsRejection .client p.Owns ∧ fault.status = 400) ∧
      ∃ fault, (validateResponse { document := petDocument } flagResponses 201 none
          (some (.string "no"))).outcome = .error fault ∧
        fault.IsRejection .server (IsUnder responseRoot) ∧ fault.status = 500 := by
  have accepting : (accept { document := petDocument } "verbose" (.string "no") .boolean).outcome =
      .error ((CheckError.invalid (.echoing ⟨"verbose", []⟩ .notBoolean (.string "no"))).toFault
        .client) := by
    simp [accept, flag_refused, Except.mapError, Except.map]
  have bound : (bind { document := petDocument } petRoute petRequest).outcome =
      .error ((CheckError.invalid (.echoing ⟨"verbose", []⟩ .notBoolean (.string "no"))).toFault
        .client) :=
    Report.outcome_bind_eq_error.mpr (.inl accepting)
  have found : flagResponses.lookup 201 = .ok (Content.json .boolean) := rfl
  have chosen : (Content.json .boolean).schemaFor? defaultContentType = some .boolean := rfl
  have checked : (validateResponse { document := petDocument } flagResponses 201 none
      (some (.string "no"))).outcome =
        .error ((CheckError.invalid (.echoing ⟨responseRoot, []⟩ .notBoolean
          (.string "no"))).toFault .server) := by
    simp [validateResponse, found, chosen, reportMismatch, flag_refused, Except.mapError,
      Except.map]
  have classified := faults_classified { document := petDocument }
  constructor
  · have ends : (bind { document := petDocument } petRoute petRequest).outcome ≠
        .error .endless := by
      simp [bound, CheckError.toFault]
    rcases classified.1 petDocument_checkReferences petRoute petRequest petRoute_sound ends with
      ⟨arguments, accepted⟩ | blamed
    · simp [bound] at accepted
    · exact blamed
  · have ends : (validateResponse { document := petDocument } flagResponses 201 none
        (some (.string "no"))).outcome ≠ .error .endless := by
      simp [checked, CheckError.toFault]
    rcases classified.2 flagResponses 201 none (some (.string "no")) ends with
      ⟨payload?, accepted⟩ | ⟨cause, faulty⟩ | blamed
    · simp [checked] at accepted
    · simp [checked, CheckError.toFault] at faulty
    · exact blamed

end Validator

end ApiContract

import ApiContract.Proofs.Binding.Sending
import ApiContract.Proofs.Validation.Suppression

/-!
What responses withhold.

Responses are checked by the rules for inputs, and these do not look at the properties that the
server assigns. So a response comes out as if its schemas did not declare them, at any depth, and a
member under the name of one passes or not as an undeclared one does.
-/

namespace ApiContract

def Content.writable (document : Document) (content : Content) : Content :=
  Entries.mapValues (Schema.writable document) content

def Responses.writable (document : Document) (rules : Responses) : Responses :=
  Entries.mapValues (Content.writable document) rules

theorem Content.schemaFor?_writable (document : Document) (content : Content)
    (contentType : String) :
    (content.writable document).schemaFor? contentType =
      (content.schemaFor? contentType).map (Schema.writable document) := by
  simp only [schemaFor?, writable, Entries.mapValues, List.find?_map, Option.map_map,
    Function.comp_def]

theorem Responses.lookup_writable (document : Document) (rules : Responses) (status : Nat) :
    (rules.writable document).lookup status =
      (rules.lookup status).map (Content.writable document) := by
  have get? (key : String) : Entries.get? (rules.writable document) key =
      (Entries.get? rules key).map (Content.writable document) :=
    Entries.get?_mapKeyed (fun _ => Content.writable document) rules key
  unfold lookup
  simp only [get?, Option.orElse_eq_orElse, Option.orElse_eq_or, ← Option.map_or]
  cases ((Entries.get? rules (toString status)).or ((Entries.get? rules (range status)).or
    ((Entries.get? rules (Request.lowerCase (range status))).or
      (Entries.get? rules "default")))) <;> rfl

namespace Validator

variable {d : Validator} {rules : Responses} {status : Nat} {contentType? : Option String}
  {payload? : Option Value} {checked? : Option Value} {v : Value} {schema : Schema}
  {rule : ObjectRule Schema} {members : List (String × Value)}

theorem outcome_reportMismatch {α : Type} (status : Nat) (x : Report CheckError α) :
    (reportMismatch status x).outcome = x.outcome.mapError (CheckError.toFault .server) := by
  unfold reportMismatch
  cases x.outcome <;> rfl

theorem outcome_validateResponse_writable (d : Validator) (rules : Responses) (status : Nat)
    (contentType? : Option String) (payload? : Option Value) :
    (∃ cause, (d.validateResponse rules status contentType? payload?).outcome =
        .error (.schema cause)) ∨
      (d.writable.validateResponse (rules.writable d.document) status contentType?
          payload?).outcome =
        (d.validateResponse rules status contentType? payload?).outcome := by
  unfold validateResponse
  rw [Responses.lookup_writable]
  cases rules.lookup status with
  | error cause => exact .inl ⟨cause, rfl⟩
  | ok content =>
    simp only [Except.map, Except.mapError, Report.ofExcept_ok, Report.pure_bind_report,
      Content.schemaFor?_writable]
    cases content.schemaFor? (contentType?.getD defaultContentType) with
    | none => exact .inr rfl
    | some schema =>
      simp only [Option.map_some, Report.outcome_bind_eq, outcome_reportMismatch]
      rcases outcome_validate_writable d.forPayload { root := responseRoot }
        (payload?.getD .null) schema .unknown with ⟨cause, faulty⟩ | same
      · left
        exact ⟨cause, by rw [faulty]; rfl⟩
      · right
        have sameOutcome : (d.writable.forPayload.validate { root := responseRoot }
            (payload?.getD .null) (schema.writable d.document) .unknown).outcome =
              (d.forPayload.validate { root := responseRoot } (payload?.getD .null) schema
                .unknown).outcome := same
        rw [sameOutcome]

/-- An accepted response has under a read-only key what comes through of an undeclared one. -/
theorem get?_of_validateResponse_eq_ok (governs : rules.Governs status contentType? schema)
    (shapes : d.document.Shapes schema (.object rule)) (keyed : Entries.Distinct rule.properties)
    (accepted : (d.validateResponse rules status contentType? (some (.object members))).outcome =
      .ok checked?) :
    ∃ entries, checked? = some (.object entries) ∧
      ∀ key v w, rule.isReadOnly d.document key = true → Entries.get? members key = some v →
        (Entries.get? entries key = some w ↔
          d.forPayload.Carries { root := responseRoot } rule .unknown key v w) := by
  obtain ⟨content, found, registered⟩ := governs
  obtain ⟨target, resolved, shape⟩ := shapes
  have resolved' : d.forPayload.document.resolve schema = .ok target := resolved
  unfold validateResponse at accepted
  simp only [found, registered, Except.mapError, Report.ofExcept_ok, Report.pure_bind_report,
    Option.getD_some, Report.outcome_bind_eq_ok, reportMismatch_eq_ok, Report.outcome_pure,
    Except.ok.injEq] at accepted
  obtain ⟨result, accepted, rfl⟩ := accepted
  rw [outcome_validate_object resolved' shape] at accepted
  obtain ⟨_, _, _, _, _, _, _, _, rfl⟩ := checkObject_eq_ok.mp accepted
  refine ⟨_, rfl, ?_⟩
  intro key v w readOnly isMember
  exact get?_of_isReadOnly keyed accepted readOnly isMember

/-- Read-only properties are suppressed in responses as in inputs. Writable parts declare none, at
any depth, and unless a fault of the schema is reported, a response comes out as with the writable
parts of all schemas; and of each member of an accepted object that stands under the name of a
read-only property, what the policy for undeclared keys lets through is kept, and nothing else. -/
theorem responses_suppress_readOnly (d : Validator) (rules : Responses) (status : Nat)
    (contentType? : Option String) (payload? : Option Value) :
    (∀ schema : Schema, (schema.writable d.document).IsWritable d.document.writable) ∧
      ((∃ cause, (d.validateResponse rules status contentType? payload?).outcome =
          .error (.schema cause)) ∨
        (d.writable.validateResponse (rules.writable d.document) status contentType?
            payload?).outcome =
          (d.validateResponse rules status contentType? payload?).outcome) ∧
      ∀ schema rule members checked?, rules.Governs status contentType? schema →
        d.document.Shapes schema (.object rule) → Entries.Distinct rule.properties →
        payload? = some (.object members) →
        (d.validateResponse rules status contentType? payload?).outcome = .ok checked? →
        ∃ entries, checked? = some (.object entries) ∧
          ∀ key v w, rule.isReadOnly d.document key = true → Entries.get? members key = some v →
            (Entries.get? entries key = some w ↔
              d.forPayload.Carries { root := responseRoot } rule .unknown key v w) := by
  refine ⟨d.document.isWritable_writable,
    outcome_validateResponse_writable d rules status contentType? payload?, ?_⟩
  rintro schema rule members checked? governs shapes keyed rfl accepted
  exact get?_of_validateResponse_eq_ok governs shapes keyed accepted

def accountServer : Validator where
  document := accountDocument
  switches := { rejectUndeclared := true }

/-- An account whose identifier is not of the kind that its schema asks for. -/
def servedAccount : List (String × Value) :=
  [("id", .string "none"), ("name", .string "Ada")]

/-- Where other keys are allowed an identifier is passed on unchecked. -/
theorem account_id_passed_on :
    (accountServer.validateResponse (okRules (account (.allowed true))) 200 none
        (some (.object servedAccount))).outcome =
      .ok (some (.object [("name", .string "Ada"), ("id", .string "none")])) ∧
    (accountServer.writable.validateResponse
        (Responses.writable accountDocument (okRules (account (.allowed true)))) 200 none
        (some (.object servedAccount))).outcome =
      .ok (some (.object [("name", .string "Ada"), ("id", .string "none")])) ∧
    accountServer.forPayload.Carries { root := responseRoot } (accountRule (.allowed true)) .unknown
      "id" (.string "none") (.string "none") := by
  have accepted : (accountServer.validateResponse (okRules (account (.allowed true))) 200 none
      (some (.object servedAccount))).outcome =
        .ok (some (.object [("name", .string "Ada"), ("id", .string "none")])) := by
    refine validateResponse_okRules_eq_ok.mpr ⟨_, rfl, ?_⟩
    have checked : (accountServer.forPayload.checkWithin 1 2 { root := responseRoot }
        (.object servedAccount) (account (.allowed true)) .unknown).outcome =
          .ok (.object [("name", .string "Ada"), ("id", .string "none")]) := rfl
    exact validate_outcome_of_checkWithin checked (by simp)
  obtain ⟨-, unchanged, passed⟩ := responses_suppress_readOnly accountServer
    (okRules (account (.allowed true))) 200 none (some (.object servedAccount))
  obtain ⟨entries, isObject, each⟩ := passed (account (.allowed true)) (accountRule (.allowed true))
    servedAccount _ ⟨_, lookup_okRules _, schemaFor?_json _⟩ ⟨_, rfl, rfl⟩ (by decide) rfl accepted
  obtain rfl := Value.object.inj (Option.some.inj isObject)
  refine ⟨accepted, ?_, (each "id" _ _ rfl rfl).mp rfl⟩
  rcases unchanged with ⟨cause, faulty⟩ | same
  · simp [accepted] at faulty
  · exact same.trans accepted

/-- Without a switch the identifier is left out, although its schema accepts it. -/
theorem account_id_withheld :
    (accountRule .unset).isReadOnly accountDocument "id" = true ∧
      Entries.get? givenAccount "id" = some (.bool true) ∧
      (validate { document := accountDocument, typedPayload := true }
          (Path.child { root := responseRoot } (.key "id")) (.bool true) (.reference "Id")
          .object).outcome = .ok (.bool true) ∧
      (validateResponse { document := accountDocument } (okRules (account .unset)) 200 none
          (some (.object givenAccount))).outcome = .ok (some (.object [("name", .string "Ada")])) ∧
      Entries.get? [("name", Value.string "Ada")] "id" = none := by
  have accepts : (checkWithin { document := accountDocument, typedPayload := true } 1 1
      (Path.child { root := responseRoot } (.key "id")) (.bool true) (.reference "Id")
      .object).outcome = .ok (.bool true) := rfl
  have checked : ((forPayload { document := accountDocument }).checkWithin 1 2
      { root := responseRoot } (.object givenAccount) (account .unset) .unknown).outcome =
        .ok (.object [("name", .string "Ada")]) := rfl
  refine ⟨rfl, rfl, validate_outcome_of_checkWithin accepts (by simp), ?_, rfl⟩
  exact validateResponse_okRules_eq_ok.mpr
    ⟨_, rfl, validate_outcome_of_checkWithin checked (by simp)⟩

end Validator

end ApiContract

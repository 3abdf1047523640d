import ApiContract.Binding.Response
import ApiContract.Proofs.Validation.Stability
import ApiContract.Proofs.Validation.Wire

/-!
Responses that are checked again.

A response that was accepted is sent as JSON. Its receiver may hold the same document and check what
comes back: it is accepted where results are accepted again and the value is legible on the wire.
-/

namespace ApiContract

open Relation (ReflTransGen)

/-- The schema that payloads of a status and a content type have to satisfy. -/
def Responses.Governs (rules : Responses) (status : Nat) (contentType? : Option String)
    (schema : Schema) : Prop :=
  ∃ content, rules.lookup status = .ok content ∧
    content.schemaFor? (contentType?.getD defaultContentType) = some schema

namespace Validator

variable {d : Validator} {rules : Responses} {status : Nat} {contentType? : Option String}
  {payload? : Option Value} {v w : Value} {schema : Schema} {branches : List Schema}

/-- Branches that compose accept their result again, as long as those of deeper nodes do. -/
theorem rejoins_of_composes (composes : d.Composes branches)
    (stable : ∀ branch ∈ branches, ∀ node, d.document.Reaches branch node → d.Stable node) :
    d.Rejoins branches := by
  intro path v w present accepted
  refine ⟨w, (checkAllOf_again_of_composes composes
    (fun branch isBranch node reaches => (stable branch isBranch node reaches).noDefault)
    (fun branch isBranch node reaches => (stable branch isBranch node reaches).keyed) present
    (fun branch isBranch w passed => ?_) accepted).2⟩
  obtain ⟨same, again⟩ :=
    settlesOn_validate d path v branch .allOf w (stable branch isBranch) passed
  exact ⟨same.trans present, passed, again⟩

theorem reportMismatch_eq_ok {α : Type} {x : Report CheckError α} {a : α} :
    (reportMismatch status x).outcome = .ok a ↔ x.outcome = .ok a := by
  unfold reportMismatch
  cases x.outcome <;> simp

/-- A response is accepted as a value when its schema accepts it, or as null where there is none. -/
theorem validateResponse_eq_ok_some :
    (d.validateResponse rules status contentType? payload?).outcome = .ok (some w) ↔
      ∃ content, rules.lookup status = .ok content ∧
        match content.schemaFor? (contentType?.getD defaultContentType) with
        | none => w = .null ∧ payload? = some .null
        | some schema =>
          (d.forPayload.validate { root := responseRoot } (payload?.getD .null) schema
            .unknown).outcome = .ok w := by
  unfold validateResponse
  rw [Report.outcome_bind_eq_ok]
  simp only [Report.outcome_ofExcept, Outcome.mapError_eq_ok]
  refine exists_congr fun content => and_congr_right fun _ => ?_
  cases content.schemaFor? (contentType?.getD defaultContentType) with
  | none =>
    cases payload? with
    | none => simp
    | some v =>
      cases isNull : v.isNull with
      | true =>
        obtain rfl := Value.eq_null_of_isNull isNull
        simp [Value.isNull, eq_comm]
      | false =>
        have other : v ≠ .null := by
          rintro rfl
          simp [Value.isNull] at isNull
        simp [isNull, other, Report.outcome_bind_eq_ok]
  | some schema =>
    simp only [Report.outcome_bind_eq_ok, reportMismatch_eq_ok, Report.outcome_pure,
      Except.ok.injEq, Option.some.injEq, exists_eq_right]

/-- What was accepted as a response is accepted again when it comes back from the wire, by a schema
that is grounded and reaches only renewable nodes, where the value is legible. -/
theorem validateResponse_wire
    (grounded : ∀ schema, rules.Governs status contentType? schema → d.document.Grounded schema)
    (renewable : ∀ schema, rules.Governs status contentType? schema →
      ∀ node, d.document.Reaches schema node → d.forPayload.Renewable node)
    (legible : ∀ schema, rules.Governs status contentType? schema →
      ∀ u node, ReflTransGen d.forPayload.RestsOn (v, schema) (u, node) →
        d.document.Legible u node)
    (accepted : (d.validateResponse rules status contentType? payload?).outcome = .ok (some v)) :
    ∃ w, (d.validateResponse rules status contentType? (some v.wire)).outcome = .ok (some w) := by
  obtain ⟨content, found, checked⟩ := validateResponse_eq_ok_some.mp accepted
  cases declared : content.schemaFor? (contentType?.getD defaultContentType) with
  | none =>
    simp only [declared] at checked
    obtain ⟨rfl, -⟩ := checked
    exact ⟨.null, validateResponse_eq_ok_some.mpr ⟨content, found, by simp [declared]⟩⟩
  | some schema =>
    simp only [declared] at checked
    have governs : rules.Governs status contentType? schema := ⟨content, found, declared⟩
    have ground : d.forPayload.document.Grounded schema := grounded schema governs
    have again := (isAccepted_again ground (renewable schema governs) checked).2
    obtain ⟨w, sent⟩ := isAccepted_wire ground (legible schema governs) again
    exact ⟨w, validateResponse_eq_ok_some.mpr ⟨content, found, by simpa [declared] using sent⟩⟩

def okRules (schema : Schema) : Responses := [("200", .json schema)]

theorem lookup_okRules (schema : Schema) : (okRules schema).lookup 200 = .ok (.json schema) := by
  have code : toString 200 = "200" := by decide +kernel
  simp [Responses.lookup, okRules, code, Entries.get?]

theorem schemaFor?_json (schema : Schema) :
    (Content.json schema).schemaFor? defaultContentType = some schema := by
  simp [Content.schemaFor?, Content.json]

theorem governs_okRules {other : Schema} (governs : (okRules schema).Governs 200 none other) :
    other = schema := by
  obtain ⟨content, found, declared⟩ := governs
  obtain rfl := Except.ok.inj ((lookup_okRules schema).symm.trans found)
  exact Option.some.inj (declared.symm.trans (schemaFor?_json schema))

theorem validateResponse_okRules_eq_ok {checked? : Option Value} :
    (d.validateResponse (okRules schema) 200 none (some v)).outcome = .ok checked? ↔
      ∃ w, checked? = some w ∧
        (d.forPayload.validate { root := responseRoot } v schema .unknown).outcome = .ok w := by
  unfold validateResponse
  simp only [lookup_okRules, Except.mapError, Report.ofExcept_ok, Report.pure_bind_report,
    Option.getD_none, Option.getD_some, schemaFor?_json, Report.outcome_bind_eq_ok,
    reportMismatch_eq_ok, Report.outcome_pure, Except.ok.injEq]
  exact exists_congr fun w => by rw [and_comm, eq_comm]

def stamped : Schema := .object [("at", .stringFormat "date-time")] ["at"]

def parcel : Schema :=
  .object [("weight", .number), ("stops", .array (.reference "Stamped"))] []

def delivery : Schema := .allOf [.reference "Stamped", parcel]

/-- A delivery, or the day on which there is one. -/
def dispatch : Schema := .oneOf [.stringFormat "date", delivery]

def dispatchDocument : Document := { schemas := [("Stamped", stamped)] }

def dispatchNodes : List Schema :=
  [dispatch, delivery, parcel, stamped, .reference "Stamped", .array (.reference "Stamped"),
    .stringFormat "date-time", .stringFormat "date", .number]

theorem mem_dispatchNodes_of_reaches {s node : Schema} (inDispatch : s ∈ dispatchNodes)
    (reaches : dispatchDocument.Reaches s node) : node ∈ dispatchNodes := by
  refine Document.mem_of_reaches ?_ ?_ inDispatch reaches
  · simp [dispatchDocument, dispatchNodes, Entries.values]
  · simp [dispatchNodes, Schema.children, dispatch, delivery, parcel, stamped, Schema.object,
      Schema.array, Schema.stringFormat, Schema.number, Schema.reference, Schema.allOf,
      Schema.oneOf, Schema.plain, Shape.nodes, Additional.nodes, Entries.values, Entries.ofList,
      Entries.extend, Entries.insert]

theorem resolves_of_mem_dispatchNodes {node : Schema} (inDispatch : node ∈ dispatchNodes) :
    dispatchDocument.Resolves node := by
  simp only [dispatchNodes, List.mem_cons, List.not_mem_nil, or_false] at inDispatch
  rcases inDispatch with rfl | rfl | rfl | rfl | rfl | rfl | rfl | rfl | rfl <;> exact ⟨_, rfl⟩

def dispatchRank (s : Schema) : Nat :=
  match s.shape with
  | .oneOf _ => 3
  | .allOf _ => 2
  | .ref _ => 1
  | _ => 0

theorem not_loops_of_mem_dispatchNodes {node : Schema} (inDispatch : node ∈ dispatchNodes) :
    ¬dispatchDocument.Loops node := by
  refine Document.not_loops_of_rank (S := (· ∈ dispatchNodes)) dispatchRank ?_ inDispatch
  intro s node inDispatch link
  simp only [dispatchNodes, List.mem_cons, List.not_mem_nil, or_false] at inDispatch
  cases link with
  | reference step =>
    obtain ⟨shape, found⟩ := step
    rcases inDispatch with rfl | rfl | rfl | rfl | rfl | rfl | rfl | rfl | rfl <;> cases shape
    cases found
    exact ⟨by simp [dispatchNodes], by decide⟩
  | intersected shape isBranch =>
    rcases inDispatch with rfl | rfl | rfl | rfl | rfl | rfl | rfl | rfl | rfl <;> cases shape
    rcases List.mem_pair.mp isBranch with rfl | rfl <;> exact ⟨by simp [dispatchNodes], by decide⟩
  | alternative shape isBranch =>
    rcases inDispatch with rfl | rfl | rfl | rfl | rfl | rfl | rfl | rfl | rfl <;> cases shape
    rcases List.mem_pair.mp isBranch with rfl | rfl <;> exact ⟨by simp [dispatchNodes], by decide⟩

theorem dispatch_grounded : dispatchDocument.Grounded dispatch where
  checked := by
    refine Document.checkReferences_eq_ok_iff.mpr ?_
    rintro node ⟨named, isNamed, occurs⟩ -
    obtain rfl : named = stamped := by simpa [dispatchDocument, Entries.values] using isNamed
    exact resolves_of_mem_dispatchNodes (mem_dispatchNodes_of_reaches (by simp [dispatchNodes])
      (Document.reaches_of_occurs occurs))
  closed node occurs _ := resolves_of_mem_dispatchNodes
    (mem_dispatchNodes_of_reaches List.mem_cons_self (Document.reaches_of_occurs occurs))
  unlooped _ reaches :=
    not_loops_of_mem_dispatchNodes (mem_dispatchNodes_of_reaches List.mem_cons_self reaches)

def dispatchValidator : Validator := forPayload { document := dispatchDocument }

theorem delivery_additive : dispatchValidator.Additive [.reference "Stamped", parcel] := by
  refine additive_of_properties [("at", .stringFormat "date-time"), ("weight", .number),
    ("stops", .array (.reference "Stamped"))] (by decide) fun branch isBranch => ?_
  rcases List.mem_pair.mp isBranch with rfl | rfl
  · exact ⟨_, ⟨stamped, rfl, rfl⟩, rfl, by simp [Entries.ofList, Entries.extend, Entries.insert]⟩
  · exact ⟨_, ⟨parcel, rfl, rfl⟩, rfl, by simp [Entries.ofList, Entries.extend, Entries.insert]⟩

def parcelNodes : List Schema :=
  [parcel, stamped, .reference "Stamped", .array (.reference "Stamped"), .stringFormat "date-time",
    .number]

theorem parcelNodes_stable {s node : Schema} (inParcel : s ∈ parcelNodes)
    (reaches : dispatchDocument.Reaches s node) : dispatchValidator.Stable node := by
  have reached : node ∈ parcelNodes := by
    refine Document.mem_of_reaches ?_ ?_ inParcel reaches
    · simp [dispatchDocument, parcelNodes, Entries.values]
    · simp [parcelNodes, Schema.children, parcel, stamped, Schema.object, Schema.array,
        Schema.stringFormat, Schema.number, Schema.reference, Schema.plain, Shape.nodes,
        Additional.nodes, Entries.values, Entries.ofList, Entries.extend, Entries.insert]
  simp only [parcelNodes, List.mem_cons, List.not_mem_nil, or_false] at reached
  rcases reached with rfl | rfl | others
  · exact stable_object _ _
  · exact stable_object _ _
  rcases others with rfl | rfl | rfl | rfl
  all_goals
    refine stable_of_no_branches rfl (Schema.keyed_of_not_object ?_) ?_ ?_ <;>
      simp [Schema.array, Schema.stringFormat, Schema.number, Schema.reference, Schema.plain]

theorem delivery_rejoins : dispatchValidator.Rejoins [.reference "Stamped", parcel] := by
  refine rejoins_of_composes (.objects delivery_additive) fun branch isBranch node reaches => ?_
  refine parcelNodes_stable ?_ reaches
  rcases List.mem_pair.mp isBranch with rfl | rfl <;> simp [parcelNodes]

theorem dispatch_renewable {node : Schema} (reaches : dispatchDocument.Reaches dispatch node) :
    dispatchValidator.Renewable node := by
  have reached := mem_dispatchNodes_of_reaches List.mem_cons_self reaches
  simp only [dispatchNodes, List.mem_cons, List.not_mem_nil, or_false] at reached
  constructor
  · rcases reached with rfl | rfl | rfl | rfl | rfl | rfl | rfl | rfl | rfl <;> rfl
  · rcases reached with rfl | rfl | rfl | rfl | others
    · exact Schema.keyed_of_not_object (by simp [dispatch, Schema.oneOf, Schema.plain])
    · exact Schema.keyed_of_not_object (by simp [delivery, Schema.allOf, Schema.plain])
    · exact Schema.keyed_object _ _
    · exact Schema.keyed_object _ _
    rcases others with rfl | rfl | rfl | rfl | rfl
    all_goals
      refine Schema.keyed_of_not_object ?_
      simp [Schema.array, Schema.stringFormat, Schema.number, Schema.reference, Schema.plain]
  · intro branches shape
    rcases reached with rfl | rfl | rfl | rfl | rfl | rfl | rfl | rfl | rfl <;> cases shape
    exact delivery_rejoins

def twoUnits : Binary64 := ⟨false, 1024 * Binary64.binade, by decide⟩

def marchFirst : Calendar.Instant := ⟨1709251200, 0, by decide⟩

def givenDelivery : Value :=
  .object [("weight", .number twoUnits), ("at", .date marchFirst),
    ("stops", .array [.object [("at", .date marchFirst), ("seen", .bool true)]])]

def acceptedDelivery : Value :=
  .object [("at", .date marchFirst), ("weight", .number twoUnits),
    ("stops", .array [.object [("at", .date marchFirst)]])]

theorem givenDelivery_accepted :
    (validateResponse { document := dispatchDocument } (okRules dispatch) 200 none
      (some givenDelivery)).outcome = .ok (some acceptedDelivery) := by
  have checked : (checkWithin dispatchValidator 4 5 { root := responseRoot } givenDelivery dispatch
      .unknown).outcome = .ok acceptedDelivery := by rfl
  have accepted := validate_outcome_of_checkWithin checked (by simp)
  exact validateResponse_okRules_eq_ok.mpr ⟨_, rfl, accepted⟩

def deliveryValues : List Value :=
  [acceptedDelivery, .array [.object [("at", .date marchFirst)]],
    .object [("at", .date marchFirst)], .date marchFirst, .number twoUnits]

theorem mem_deliveryValues_of_calls {call next : Value × Schema}
    (inDelivery : call.1 ∈ deliveryValues) (calls : dispatchDocument.Calls call next) :
    next.1 ∈ deliveryValues := by
  have closed : ∀ v ∈ deliveryValues, ∀ w ∈ v.children, w ∈ deliveryValues := by
    simp [deliveryValues, acceptedDelivery, Value.children, Entries.values]
  cases calls with
  | across _ => exact inDelivery
  | inside member _ => exact closed _ inDelivery _ (Value.exists_member_iff.mp ⟨_, member⟩)

theorem acceptedDelivery_legible {v : Value} {node : Schema}
    (rests : ReflTransGen dispatchValidator.RestsOn (acceptedDelivery, dispatch) (v, node)) :
    dispatchDocument.Legible v node := by
  have calls : ReflTransGen dispatchDocument.Calls (acceptedDelivery, dispatch) (v, node) :=
    ReflTransGen.mono (fun _ _ => RestsOn.calls) _ _ rests
  have place (next : Value × Schema)
      (calls : ReflTransGen dispatchDocument.Calls (acceptedDelivery, dispatch) next) :
      next.1 ∈ deliveryValues ∧ next.2 ∈ dispatchNodes := by
    induction calls with
    | refl => exact ⟨List.mem_cons_self, List.mem_cons_self⟩
    | tail _ call ih =>
      exact ⟨mem_deliveryValues_of_calls ih.1 call,
        mem_dispatchNodes_of_reaches ih.2 (reaches_of_calls (d := dispatchValidator) call)⟩
  obtain ⟨isValue, isNode⟩ := place (v, node) calls
  simp only [deliveryValues, List.mem_cons, List.not_mem_nil, or_false] at isValue
  constructor
  · rintro t rule rfl ⟨target, resolved, shape⟩
    obtain rfl : t = marchFirst := by simpa [acceptedDelivery] using isValue
    refine ⟨by decide +kernel, by decide +kernel, ?_⟩
    simp only [dispatchNodes, List.mem_cons, List.not_mem_nil, or_false] at isNode
    rcases isNode with rfl | rfl | rfl | rfl | rfl | rfl | rfl | rfl | rfl <;>
      cases resolved <;> cases shape <;> rfl
  · rintro bytes rule rfl -
    simp [acceptedDelivery] at isValue
  · rintro x rfl infinite
    obtain rfl : x = twoUnits := by simpa [acceptedDelivery] using isValue
    exact absurd infinite (by decide)

theorem acceptedDelivery_accepted_again :
    (∀ schema, (okRules dispatch).Governs 200 none schema → dispatchDocument.Grounded schema) ∧
      (validateResponse { document := dispatchDocument } (okRules dispatch) 200 none
        (some givenDelivery)).outcome = .ok (some acceptedDelivery) ∧
      ∃ w, (validateResponse { document := dispatchDocument } (okRules dispatch) 200 none
        (some acceptedDelivery.wire)).outcome = .ok (some w) := by
  have grounded (schema : Schema) (governs : (okRules dispatch).Governs 200 none schema) :
      dispatchDocument.Grounded schema := by
    rw [governs_okRules governs]
    exact dispatch_grounded
  refine ⟨grounded, givenDelivery_accepted, validateResponse_wire grounded ?_ ?_
    givenDelivery_accepted⟩
  · intro schema governs node reaches
    rw [governs_okRules governs] at reaches
    exact dispatch_renewable reaches
  · intro schema governs v node rests
    rw [governs_okRules governs] at rests
    exact acceptedDelivery_legible rests

def shortDate : Schema := .plain (.string { format := some "date", maxLength := some 10 })

theorem shortDate_accepted :
    (validate (forPayload {}) { root := responseRoot } (.string "2024-03-01") shortDate
      .unknown).outcome = .ok (.date marchFirst) := by
  have read : Calendar.Instant.ofText? "2024-03-01" = some marchFirst := by decide +kernel
  have coerced : StringRule.coerce { format := some "date", maxLength := some 10 }
      (.string "2024-03-01") = .ok (.date marchFirst) :=
    StringRule.coerce_eq_ok_iff.mpr (.instant (by decide +kernel) (by decide) read)
  rw [validate_outcome]
  exact step_eq_ok.mpr ⟨shortDate, rfl, .inr ⟨rfl, .string rfl coerced⟩⟩

theorem texts_not_accepted {rule : StringRule} {v w : Value} (present : v.isNull = false)
    (unread : ∀ w, ¬rule.Reads v w) :
    (validate (forPayload {}) { root := responseRoot } v (.plain (.string rule))
      .unknown).outcome ≠ .ok w := by
  intro accepted
  have resolved : Document.resolve {} (.plain (.string rule)) = .ok (.plain (.string rule)) := rfl
  exact unread w ((accepts_of_validate_eq_ok present resolved accepted).of_string rfl)

theorem shortDate_wire_refused {w : Value} :
    (validate (forPayload {}) { root := responseRoot } (Value.date marchFirst).wire shortDate
      .unknown).outcome ≠ .ok w := by
  have long : StringRule.violation? { format := some "date", maxLength := some 10 }
      marchFirst.text ≠ none := by decide +kernel
  refine texts_not_accepted rfl fun w reads => ?_
  cases reads with
  | instant violation _ _ => exact long violation
  | text violation _ => exact long violation

theorem binary_wire_refused {w : Value} :
    (validate (forPayload {}) { root := responseRoot } (Value.binary [1, 2]).wire
      (.stringFormat "binary") .unknown).outcome ≠ .ok w :=
  texts_not_accepted rfl fun w reads => by cases reads

theorem nan_wire_refused {w : Value} :
    (validate (forPayload {}) { root := responseRoot } (Value.number .nan).wire .any
      .unknown).outcome ≠ .ok w := by
  intro accepted
  rw [Value.wire_number_eq_null (by decide), validate_outcome] at accepted
  obtain ⟨target, resolved, ⟨-, nulled⟩ | ⟨present, -⟩⟩ := step_eq_ok.mp accepted
  · obtain rfl := Except.ok.inj resolved
    exact absurd (checkNull_eq_ok.mp nulled).1 (by decide)
  · simp [Value.isNull] at present

/-- Without defaults and references, the text of an instant may be longer than its rule allows,
binary content is not sent as a text, and null is sent in place of what is not a number. -/
theorem sent_value_refused :
    (Document.checkReferences {} = .ok () ∧
      ∀ schema ∈ [shortDate, .stringFormat "binary", .any],
        ∀ node, Document.Reaches {} schema node → node.default? = none) ∧
    ((validateResponse {} (okRules shortDate) 200 none (some (.string "2024-03-01"))).outcome =
        .ok (some (.date marchFirst)) ∧
      ∀ checked?, (validateResponse {} (okRules shortDate) 200 none
        (some (Value.date marchFirst).wire)).outcome ≠ .ok checked?) ∧
    ((validateResponse {} (okRules (.stringFormat "binary")) 200 none
        (some (.binary [1, 2]))).outcome = .ok (some (.binary [1, 2])) ∧
      ∀ checked?, (validateResponse {} (okRules (.stringFormat "binary")) 200 none
        (some (Value.binary [1, 2]).wire)).outcome ≠ .ok checked?) ∧
    ((validateResponse {} (okRules .any) 200 none (some (.number .nan))).outcome =
        .ok (some (.number .nan)) ∧
      ∀ checked?, (validateResponse {} (okRules .any) 200 none
        (some (Value.number .nan).wire)).outcome ≠ .ok checked?) := by
  have binary : (checkWithin (forPayload {}) 1 1 { root := responseRoot } (.binary [1, 2])
      (.stringFormat "binary") .unknown).outcome = .ok (.binary [1, 2]) := rfl
  have nan : (checkWithin (forPayload {}) 1 1 { root := responseRoot } (.number .nan) .any
      .unknown).outcome = .ok (.number .nan) := rfl
  simp only [validateResponse_okRules_eq_ok, ne_eq, not_exists, not_and]
  refine ⟨⟨Document.checkReferences_empty, ?_⟩,
    ⟨⟨_, rfl, shortDate_accepted⟩, fun _ _ _ => shortDate_wire_refused⟩,
    ⟨⟨_, rfl, validate_outcome_of_checkWithin binary (by simp)⟩,
      fun _ _ _ => binary_wire_refused⟩,
    ⟨_, rfl, validate_outcome_of_checkWithin nan (by simp)⟩, fun _ _ _ => nan_wire_refused⟩
  intro schema isSchema node reaches
  have reached : node ∈ [shortDate, .stringFormat "binary", .any] := by
    refine Document.mem_of_reaches ?_ ?_ isSchema reaches
    · simp [Entries.values]
    · simp [Schema.children, shortDate, Schema.stringFormat, Schema.any, Schema.plain,
        Shape.nodes]
  simp only [List.mem_cons, List.not_mem_nil, or_false] at reached
  rcases reached with rfl | rfl | rfl <;> rfl

end Validator

end ApiContract

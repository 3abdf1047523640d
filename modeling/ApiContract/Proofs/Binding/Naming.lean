import ApiContract.Binding.Binder
import ApiContract.Proofs.Validation.Addressing
import ApiContract.Proofs.Validation.Branches
import ApiContract.Proofs.Validation.View

/-!
What the name of a parameter decides.

A parameter of a query, a header or a path is bound from the texts that a request carries under its
name, and its name is the root of every place in it. Two names are bound alike, up to the name that
starts the fields of a failure, if numbers may be written as texts under both or under neither.

A parameter that is called like the root of bodies is told apart: its numbers are turned down.
-/

namespace ApiContract

def Location.HoldsTexts (location : Location) : Prop :=
  location = .query ∨ location = .header ∨ location = .path

namespace Request

/-- The texts that a request carries under a name, in order. -/
def carried (r : Request) (location : Location) (name : String) : List String :=
  match location with
  | .query => (r.queries.get? name).getD []
  | .header => (r.headers.get? (lowerCase name)).toList
  | .path => (r.pathValues.get? name).toList
  | _ => []

/-- The raw value that some texts stand for. -/
def rawOf? : List String → Option Value
  | [] => none
  | [single] => some (.string single)
  | many => some (.array (many.map .string))

theorem raw?_eq (r : Request) (location : Location) (name : String) :
    r.raw? location name = rawOf? (r.carried location name) := by
  cases location with
  | query =>
    simp only [raw?, query?, carried]
    cases r.queries.get? name with
    | none => rfl
    | some texts => rcases texts with _ | ⟨first, _ | ⟨second, rest⟩⟩ <;> rfl
  | header =>
    simp only [raw?, header?, carried]
    cases r.headers.get? (lowerCase name) <;> rfl
  | path =>
    simp only [raw?, pathValue?, carried]
    cases r.pathValues.get? name <;> rfl
  | request => rfl
  | body => rfl

end Request

def Path.tail (p : Path) : String := { p with root := "" : Path }.text

theorem Path.text_eq_append (p : Path) : p.text = p.root ++ p.tail := by
  obtain ⟨root, steps⟩ := p
  have shift (start : String) : steps.foldl (fun t s => t ++ "." ++ s.text) (root ++ start) =
      root ++ steps.foldl (fun t s => t ++ "." ++ s.text) start := by
    induction steps generalizing start with
    | nil => rfl
    | cons s steps ih => simpa [String.append_assoc] using ih (start ++ "." ++ s.text)
  simpa [text, tail] using shift ""

@[simp] theorem Path.root_renamed (rename : String → String) (p : Path) :
    (p.renamed rename).root = rename p.root := rfl

@[simp] theorem Path.tail_renamed (rename : String → String) (p : Path) :
    (p.renamed rename).tail = p.tail := rfl

/-- The same fault but for the name that the fields at fault start with. -/
inductive Fault.NamedApart (n m : String) : Fault → Fault → Prop
  | rejected {summary severity} (tails : List (String × FieldFault)) :
      NamedApart n m
        (.rejected { summary, severity, fields := tails.map fun e => (n ++ e.1, e.2) })
        (.rejected { summary, severity, fields := tails.map fun e => (m ++ e.1, e.2) })
  | other {fault} : (∀ rejection, fault ≠ .rejected rejection) → NamedApart n m fault fault

theorem Fault.namedApart_missing (n m : String) :
    (missingParameter n).NamedApart n m (missingParameter m) := by
  have apart := @NamedApart.rejected n m .missingParameter .client
    [("", { reason := .parameterRequired })]
  simpa [missingParameter, Rejection.single] using apart

theorem Fault.namedApart_renamed {rename : String → String} {failure : Failure} :
    (CheckError.toFault .client (.invalid failure)).NamedApart failure.path.root
      (rename failure.path.root)
      (CheckError.toFault .client (.invalid (failure.renamed rename))) := by
  have apart := @NamedApart.rejected failure.path.root (rename failure.path.root) failure.reason
    .client [(failure.path.tail, { reason := failure.reason, value := failure.value })]
  simpa [CheckError.toFault, Rejection.ofFailure, Failure.renamed, Path.text_eq_append] using apart

/-- The same argument, or the same fault but for the leading name. -/
inductive BoundAlike (n m : String) : Except Fault Argument → Except Fault Argument → Prop
  | argument {a} : BoundAlike n m (.ok a) (.ok a)
  | fault {f g} : f.NamedApart n m g → BoundAlike n m (.error f) (.error g)

namespace Validator

open Report

variable {d : Validator} {n m : String} {schema : Schema} {v : Value} {parent : Parent}
  {r r' : Request} {location : Location} {isRequired : Bool}

/-- Whether numbers may be written as text depends on the root alone, and matters to numbers
alone. -/
def NamesAlike (d : Validator) (schema : Schema) (n m : String) : Prop :=
  d.readsText { root := n } = d.readsText { root := m } ∨
    ∀ node rule, d.document.Reaches schema node → node.shape ≠ .number rule

def reroot (n m : String) : View where
  rename root := if root = n then m else root

theorem differs_of_namesAlike (alike : d.NamesAlike schema n m) :
    Differs (reroot n m) (d.document.Reaches schema) d d where
  document := rfl
  closed _ _ reaches leads := reaches.trans (Document.reaches_of_leads leads)
  texts s target rule path reaches resolved shape := by
    rcases alike with same | noNumber
    · by_cases isRoot : path.root = n
      · have atRoot : d.readsText path = d.readsText { root := n } := by rw [← isRoot]; rfl
        have renamed : d.readsText (path.renamed (reroot n m).rename) =
            d.readsText { root := m } := by
          simp [readsText, Path.isBody, Path.renamed, reroot, isRoot]
        rw [atRoot, renamed, same]
      · simp [readsText, Path.isBody, Path.renamed, reroot, isRoot]
    · have reached := reaches.trans (Document.reaches_of_resolve_eq_ok resolved)
      exact absurd shape (noNumber target rule reached)
  fate rule parent keys := (View.fate_of_tellsStripped rfl _).symm

theorem validate_reroot (alike : d.NamesAlike schema n m) :
    d.validate { root := m } v schema parent =
      (d.validate { root := n } v schema parent).through (reroot n m) := by
  have seen : d.validate (Path.renamed (reroot n m).rename { root := n }) v schema parent =
      (d.validate { root := n } v schema parent).through (reroot n m) :=
    validate_through (differs_of_namesAlike alike) .refl
  simpa [Path.renamed, reroot] using seen

theorem boundAlike_accept (alike : d.NamesAlike schema n m) (v : Value) :
    BoundAlike n m (d.accept n v schema).outcome (d.accept m v schema).outcome := by
  unfold accept
  simp only [outcome_bind_eq, outcome_mapError, outcome_pure, validate_reroot alike, Report.through]
  cases outcome : (d.validate { root := n } v schema .unknown).outcome with
  | ok w => exact .argument
  | error cause =>
    cases cause with
    | invalid failure =>
      obtain ⟨steps, place, -⟩ := addresses_validate d _ _ _ _ _ outcome
      have atRoot : failure.path.root = n := by rw [place, Path.root_below]
      have apart := @Fault.namedApart_renamed (reroot n m).rename failure
      rw [atRoot] at apart
      exact .fault (by simpa [reroot, CheckError.renamed] using apart)
    | schema cause => exact .fault (.other (by simp [CheckError.toFault]))
    | endless => exact .fault (.other (by simp [CheckError.toFault]))

theorem boundAlike_absent (p q : Parameter) (sameNeed : p.isRequired = q.isRequired) :
    BoundAlike p.name q.name p.absent.outcome q.absent.outcome := by
  unfold Parameter.absent
  rw [sameNeed]
  split
  · exact .fault (Fault.namedApart_missing p.name q.name)
  · exact .argument

theorem boundAlike_bindText (alike : d.NamesAlike schema n m)
    (carried : r.carried location n = r'.carried location m) :
    BoundAlike n m (d.bindText r { name := n, location, schema, isRequired }).outcome
      (d.bindText r' { name := m, location, schema, isRequired }).outcome := by
  unfold bindText
  cases resolved : d.document.resolve schema with
  | error cause => exact .fault (.other (by simp))
  | ok target =>
    simp only [Except.mapError, ofExcept_ok, pure_bind, Request.raw?_eq, carried]
    cases Request.rawOf? (r'.carried location m) with
    | none =>
      exact boundAlike_absent { name := n, location, schema, isRequired }
        { name := m, location, schema, isRequired } rfl
    | some raw => exact boundAlike_accept alike (adaptQuery location target.shape raw)

theorem bindParameter_eq_bindText {rule? : Option BodyRule} {p : Parameter}
    (texts : p.location.HoldsTexts) : d.bindParameter rule? r p = d.bindText r p := by
  unfold bindParameter
  rcases texts with location | location | location <;> simp only [location]

/-- What a number is bound to that is written as a text. -/
def boundNumber (name : String) (rule : NumberRule) (text : String) : Except Fault Argument :=
  ((rule.coerce true (.string text)).map fun x => .value (.number x)).mapError fun reason =>
    .rejected (.single .client reason name { reason, value := some (.string text) })

theorem boundNumber_of_coerce {name : String} {rule : NumberRule} {text : String} {x : Binary64}
    (read : rule.coerce true (.string text) = .ok x) :
    boundNumber name rule text = .ok (.value (.number x)) := by
  rw [boundNumber, read]
  rfl

theorem outcome_bindText_number {rule : NumberRule} {text : String}
    (shapes : d.document.Shapes schema (.number rule)) (reads : d.readsText { root := n } = true)
    (carried : r.carried location n = [text]) :
    (d.bindText r { name := n, location, schema, isRequired }).outcome =
      boundNumber n rule text := by
  obtain ⟨target, resolved, shape⟩ := shapes
  have adapted : adaptQuery location target.shape (.string text) = .string text := by
    rw [shape]
    cases location <;> rfl
  have checked : (d.validate { root := n } (.string text) schema .unknown).outcome =
      (d.checkNumber { root := n } (.string text) rule).outcome := by
    rw [validate_outcome, step]
    simp [resolved, shape, Except.mapError, Value.isNull]
  unfold bindText accept
  simp only [resolved, Except.mapError, ofExcept_ok, pure_bind, Request.raw?_eq, carried,
    Request.rawOf?, adapted, outcome_bind_eq, outcome_mapError, checked]
  unfold checkNumber boundNumber
  rw [reads]
  cases rule.coerce true (.string text) <;> rfl

/-- A parameter is bound alike under two names that carry the same texts: to the same argument, or
with the same fault but for the leading name of the field. All that the names may decide is whether
numbers are written as texts, and where they are, a number is read from its text. -/
theorem binding_ignores_name (d : Validator) (rule? : Option BodyRule) {schema : Schema}
    {location : Location} (isRequired : Bool) {n m : String} {r r' : Request}
    (texts : location.HoldsTexts) (alike : d.NamesAlike schema n m)
    (carried : r.carried location n = r'.carried location m) :
    BoundAlike n m (d.bindParameter rule? r { name := n, location, schema, isRequired }).outcome
        (d.bindParameter rule? r' { name := m, location, schema, isRequired }).outcome ∧
      ∀ rule text, d.document.Shapes schema (.number rule) → d.readsText { root := n } = true →
        r.carried location n = [text] →
        (d.bindParameter rule? r { name := n, location, schema, isRequired }).outcome =
          boundNumber n rule text := by
  rw [bindParameter_eq_bindText texts, bindParameter_eq_bindText texts]
  exact ⟨boundAlike_bindText alike carried,
    fun rule text shapes reads single => outcome_bindText_number shapes reads single⟩

def fiveRequest (name : String) : Request := ({} : Request).addQuery name "5"

def numberParameter (name : String) : Parameter := { name, location := .query, schema := .number }

theorem boundNumber_five (name : String) :
    boundNumber name {} "5" = .ok (.value (.number (.ofNat 5))) := by
  have read : NumberRule.coerce {} true (.string "5") = .ok (.ofNat 5) := by decide +kernel
  exact boundNumber_of_coerce read

theorem number_shapes (document : Document) : document.Shapes .number (.number {}) :=
  ⟨_, rfl, rfl⟩

theorem response_bound_alike :
    Location.query.HoldsTexts ∧ NamesAlike {} .number "response" "limit" ∧
      (fiveRequest "response").carried .query "response" =
        (fiveRequest "limit").carried .query "limit" ∧
      BoundAlike "response" "limit"
        (bindParameter {} none (fiveRequest "response") (numberParameter "response")).outcome
        (bindParameter {} none (fiveRequest "limit") (numberParameter "limit")).outcome ∧
      (bindParameter {} none (fiveRequest "response") (numberParameter "response")).outcome =
        .ok (.value (.number (.ofNat 5))) := by
  have texts : Location.query.HoldsTexts := .inl rfl
  have alike : NamesAlike {} .number "response" "limit" := .inl rfl
  have carried : (fiveRequest "response").carried .query "response" =
      (fiveRequest "limit").carried .query "limit" := rfl
  obtain ⟨bound, read⟩ := binding_ignores_name {} none false texts alike carried
  have five := read {} "5" (number_shapes _) rfl rfl
  exact ⟨texts, alike, carried, bound, five.trans (boundNumber_five "response")⟩

/-- A number in the query is read from its text under one name, and turned down under the name of
the root of bodies. -/
theorem body_not_bound_alike :
    (fiveRequest "limit").carried .query "limit" = (fiveRequest "body").carried .query "body" ∧
      (bindParameter {} none (fiveRequest "limit") (numberParameter "limit")).outcome =
        .ok (.value (.number (.ofNat 5))) ∧
      (bindParameter {} none (fiveRequest "body") (numberParameter "body")).outcome =
        .error (.rejected (.single .client .notNumber "body"
          { reason := .notNumber, value := some (.string "5") })) := by
  refine ⟨rfl, ?_, ?_⟩
  · rw [bindParameter_eq_bindText (.inl rfl)]
    have five : (bindText {} (fiveRequest "limit") (numberParameter "limit")).outcome =
        boundNumber "limit" {} "5" := outcome_bindText_number (number_shapes _) rfl rfl
    exact five.trans (boundNumber_five "limit")
  · have refused : (checkWithin {} 1 1 { root := "body" } (.string "5") .number .unknown).outcome =
        .error (.invalid (.echoing { root := "body" } .notNumber (.string "5"))) := rfl
    have turnedDown := validate_outcome_of_checkWithin refused (by simp)
    have accepting : (accept {} "body" (.string "5") .number).outcome =
        .error ((CheckError.invalid (.echoing { root := "body" } .notNumber
          (.string "5"))).toFault .client) := by
      simp [accept, turnedDown, Except.mapError, Except.map]
    exact accepting

end Validator

end ApiContract

import ApiContract.Proofs.Validation.Recursion

/-!
Reports seen through a view.

A view gives roots other names, and may leave out the events that tell of stripped keys. It respects
how reports are composed. So when two validators differ by no more than a view shows, a step of the
one reports what a step of the other does, seen through the view, and so does a whole check.

The switch that logs undeclared keys only observes: it is such a view.
-/

namespace ApiContract

def Path.renamed (rename : String → String) (p : Path) : Path := { p with root := rename p.root }

def Failure.renamed (rename : String → String) (f : Failure) : Failure :=
  { f with path := f.path.renamed rename }

def CheckError.renamed (rename : String → String) : CheckError → CheckError
  | invalid failure => invalid (failure.renamed rename)
  | schema cause => schema cause
  | endless => endless

def Event.renamed (rename : String → String) : Event → Event
  | numberAccepted path value => numberAccepted (path.renamed rename) value
  | unknownFormat path format => unknownFormat (path.renamed rename) format
  | undeclaredStripped path keys => undeclaredStripped (path.renamed rename) keys
  | branchRejected path branch failure =>
    branchRejected (path.renamed rename) branch (failure.renamed rename)
  | branchSelected path branch => branchSelected (path.renamed rename) branch
  | unsupportedShape path raw => unsupportedShape (path.renamed rename) raw
  | bodySchemaChosen name => bodySchemaChosen name
  | undeclaredContent status contentType => undeclaredContent status contentType
  | responseMismatch status error => responseMismatch status (error.renamed rename)

@[simp] theorem Path.renamed_child (rename : String → String) (p : Path) (s : Segment) :
    (p.child s).renamed rename = (p.renamed rename).child s := rfl

@[simp] theorem Path.renamed_id (p : Path) : p.renamed id = p := rfl

@[simp] theorem Failure.renamed_id (f : Failure) : f.renamed id = f := rfl

@[simp] theorem CheckError.renamed_id (e : CheckError) : e.renamed id = e := by
  cases e <;> simp [renamed]

@[simp] theorem Event.renamed_id (e : Event) : e.renamed id = e := by
  cases e <;> simp [renamed]

/-- Whether the event warns of undeclared keys that were left out. -/
def Event.tellsStripped (e : Event) : Bool :=
  e.level = .warn && e.message = "unexpected additional properties stripped"

theorem Event.tellsStripped_iff {e : Event} :
    e.tellsStripped = true ↔ ∃ path keys, e = .undeclaredStripped path keys := by
  cases e <;> simp [tellsStripped, level, message]

/-- How the report of one check shows in the report of another. -/
structure View where
  rename : String → String := id
  tellsStripped : Bool := true

namespace View

def shows (view : View) (e : Event) : Bool := view.tellsStripped || !e.tellsStripped

theorem shows_of_ne {view : View} {e : Event}
    (other : ∀ path keys, e ≠ .undeclaredStripped path keys) :
    view.shows e = true := by
  have silent : e.tellsStripped = false := by
    rw [← Bool.not_eq_true, Event.tellsStripped_iff]
    rintro ⟨path, keys, rfl⟩
    exact other path keys rfl
  simp [shows, silent]

/-- Keys that are stripped with a warning show as keys that are stripped without a word where the
view leaves the warning out. -/
def fate {σ : Type} (view : View) : Fate σ → Fate σ
  | .warn => if view.tellsStripped then .warn else .drop
  | other => other

theorem fate_of_tellsStripped {σ : Type} {view : View} (told : view.tellsStripped = true)
    (f : Fate σ) : view.fate f = f := by
  cases f <;> simp [fate, told]

end View

namespace Report

variable {α β : Type} {view : View}

def through (view : View) (x : Report CheckError α) : Report CheckError α where
  log := (x.log.filter view.shows).map (Event.renamed view.rename)
  outcome := x.outcome.mapError (CheckError.renamed view.rename)

@[simp] theorem through_pure (a : α) :
    (pure a : Report CheckError α).through view = pure a := rfl


theorem through_emit {e : Event} (isShown : view.shows e = true) :
    (emit e).through view = emit (e.renamed view.rename) := by
  simp [through, emit, isShown, Except.mapError]

theorem through_bind (x : Report CheckError α) (f : α → Report CheckError β) :
    (x >>= f).through view = x.through view >>= fun a => (f a).through view := by
  obtain ⟨log, outcome⟩ := x
  cases outcome <;> simp [through, bind_def, Report.bind, Except.mapError]

theorem through_mapM {f g : α → Report CheckError β} {inputs : List α}
    (each : ∀ a ∈ inputs, g a = (f a).through view) :
    inputs.mapM g = (inputs.mapM f).through view := by
  induction inputs with
  | nil => rfl
  | cons a rest ih =>
    simp only [List.mapM_cons, through_bind, through_pure, each a List.mem_cons_self,
      ih fun b later => each b (List.mem_cons_of_mem a later)]

theorem through_of_rename_eq_id (sameNames : view.rename = id) (x : Report CheckError α) :
    x.through view = ⟨x.log.filter view.shows, x.outcome⟩ := by
  obtain ⟨log, outcome⟩ := x
  have sameEvents : (log.filter view.shows).map (Event.renamed id) = log.filter view.shows := by
    rw [funext Event.renamed_id, List.map_id']
  cases outcome <;> simp [through, sameNames, sameEvents, Except.mapError]

end Report

namespace Validator

open Report

variable {d d' : Validator} {view : View} {S : Schema → Prop} {schema : Schema}
  {check check' inside inside' across across' : Check} {path : Path} {v : Value} {parent : Parent}

/-- What the first check reports of the schemas in a set, the second one reports as the view shows
it. -/
def Shows (view : View) (S : Schema → Prop) (check check' : Check) : Prop :=
  ∀ path v schema parent, S schema →
    check' (path.renamed view.rename) v schema parent = (check path v schema parent).through view

/-- The validators differ by no more than the view shows, on a set of schemas that a check does not
leave. -/
structure Differs (view : View) (S : Schema → Prop) (d d' : Validator) : Prop where
  document : d'.document = d.document
  closed : ∀ s node, S s → d.document.Leads s node → S node
  texts : ∀ s target rule path, S s → d.document.resolve s = .ok target →
    target.shape = .number rule → d'.readsText (path.renamed view.rename) = d.readsText path
  fate : ∀ (rule : Additional Schema) parent keys,
    rule.fate d'.switches parent keys = view.fate (rule.fate d.switches parent keys)

@[simp] theorem through_refuse {α : Type} (reason : Reason) :
    (Validation.refuse path reason v : Report CheckError α).through view =
      Validation.refuse (path.renamed view.rename) reason v := rfl

theorem through_checkNull (schema target : Schema) :
    (checkNull path schema target).through view =
      checkNull (path.renamed view.rename) schema target := by
  unfold checkNull
  split <;> simp

theorem through_checkString (rule : StringRule) :
    (checkString path v rule).through view = checkString (path.renamed view.rename) v rule := by
  unfold checkString
  cases rule.coerce v with
  | error reason => simp
  | ok w =>
    cases w with
    | string s =>
      cases format : rule.format with
      | none => simp [through, StringRule.events, format, Except.mapError]
      | some name =>
        by_cases plain : StringRule.isPlainFormat name = true
        · simp [through, StringRule.events, format, plain, Except.mapError]
        · have shown : view.shows (.unknownFormat path name) = true := View.shows_of_ne (by simp)
          simp [through, StringRule.events, format, plain, Except.mapError, shown, Event.renamed]
    | _ => rfl

theorem through_checkNumber {rule : NumberRule}
    (texts : d'.readsText (path.renamed view.rename) = d.readsText path) :
    (d.checkNumber path v rule).through view =
      d'.checkNumber (path.renamed view.rename) v rule := by
  unfold checkNumber
  rw [texts]
  cases rule.coerce (d.readsText path) v with
  | error reason => simp
  | ok x =>
    have shown : view.shows (.numberAccepted path x) = true := View.shows_of_ne (by simp)
    simp [through, Except.mapError, shown, Event.renamed]

theorem through_checkBoolean :
    (checkBoolean path v).through view = checkBoolean (path.renamed view.rename) v := by
  unfold checkBoolean
  cases v.toBool? <;> simp

theorem through_checkArray {rule : ArrayRule Schema}
    (inner : ∀ segment w, check' ((path.child segment).renamed view.rename) w rule.items .array =
      (check (path.child segment) w rule.items .array).through view) :
    checkArray check' (path.renamed view.rename) v rule =
      (checkArray check path v rule).through view := by
  unfold checkArray
  cases v with
  | array items =>
    cases violation : countViolation? rule items.length with
    | some reason => simp only [violation, through_refuse]
    | none =>
      simp only [violation, through_bind, through_pure]
      rw [through_mapM]
      rintro ⟨item, i⟩ -
      exact inner (.index i) item
  | _ => rfl

theorem through_checkProperty {required : List String} {members : Entries Value} {p : Declared}
    (inner : ∀ segment w, check' ((path.child segment).renamed view.rename) w p.node .object =
      (check (path.child segment) w p.node .object).through view) :
    checkProperty check' (path.renamed view.rename) required members p =
      (checkProperty check path required members p).through view := by
  unfold checkProperty
  cases members.get? p.name with
  | some w =>
    simp only [through_bind, through_pure]
    rw [← Path.renamed_child, inner]
  | none =>
    simp only
    split
    · split <;> rfl
    · rfl

theorem through_checkUndeclared {rule : ObjectRule Schema} {undeclared : List (String × Value)}
    (fate : rule.additional.fate d'.switches parent (undeclared.map Prod.fst) =
      view.fate (rule.additional.fate d.switches parent (undeclared.map Prod.fst)))
    (inner : ∀ node, rule.additional = .schema node → ∀ segment w,
      check' ((path.child segment).renamed view.rename) w node .object =
        (check (path.child segment) w node .object).through view) :
    d'.checkUndeclared check' (path.renamed view.rename) v parent rule undeclared =
      (d.checkUndeclared check path v parent rule undeclared).through view := by
  unfold checkUndeclared
  simp only [fate]
  cases chosen : rule.additional.fate d.switches parent (undeclared.map Prod.fst) with
  | reject => rfl
  | warn =>
    by_cases told : view.tellsStripped = true
    · simp [View.fate, told, through, View.shows, Except.mapError, Event.renamed]
    · simp [View.fate, told, through, View.shows, Except.mapError, Event.tellsStripped,
        Event.level, Event.message]
      rfl
  | copy => rfl
  | check node =>
    refine through_mapM ?_
    rintro ⟨key, w⟩ -
    simp only [through_bind, through_pure]
    rw [← Path.renamed_child, inner node (Additional.eq_schema_of_fate_eq_check chosen)]
  | drop => rfl

theorem through_checkObject {rule : ObjectRule Schema} (document : d'.document = d.document)
    (fate : ∀ keys, rule.additional.fate d'.switches parent keys =
      view.fate (rule.additional.fate d.switches parent keys))
    (inner : ∀ node ∈ (Shape.object rule).nodes, ∀ segment w,
      check' ((path.child segment).renamed view.rename) w node .object =
        (check (path.child segment) w node .object).through view) :
    d'.checkObject check' (path.renamed view.rename) v rule parent =
      (d.checkObject check path v rule parent).through view := by
  unfold checkObject
  cases v with
  | object members =>
    rw [document]
    cases resolved : declared d.document rule.properties with
    | error cause => rfl
    | ok ps =>
      simp only [Except.mapError, ofExcept_ok, pure_bind, through_bind, through_pure]
      rw [through_mapM, through_checkUndeclared (fate _)]
      · intro node isSchema
        exact inner node (ObjectRule.mem_nodes_of_additional isSchema)
      · intro p isDeclared
        have isProperty := (mem_properties_of_mem_declared resolved isDeclared).1
        exact through_checkProperty (inner p.node (ObjectRule.mem_nodes_of_property isProperty))
  | _ => rfl

theorem through_checkAllOf {branches : List Schema}
    (branch : ∀ node ∈ branches, check' (path.renamed view.rename) v node .allOf =
      (check path v node .allOf).through view) :
    checkAllOf check' (path.renamed view.rename) v branches =
      (checkAllOf check path v branches).through view := by
  unfold checkAllOf
  rw [through_bind, through_mapM branch]
  congr 1
  funext results
  cases results <;> rfl

theorem through_tryBranch {node : Schema} {index : Nat}
    (branch : check' (path.renamed view.rename) v node .oneOf =
      (check path v node .oneOf).through view) :
    tryBranch check' (path.renamed view.rename) v node index =
      (tryBranch check path v node index).through view := by
  unfold tryBranch
  rw [branch]
  obtain ⟨log, outcome⟩ := check path v node .oneOf
  cases outcome with
  | ok w => simp [through, attempt, bind_def, Report.bind, Except.mapError]
  | error cause =>
    cases cause with
    | invalid failure =>
      have shown : view.shows (.branchRejected path index failure) = true :=
        View.shows_of_ne (by simp)
      simp [through, attempt, bind_def, Report.bind, Except.mapError, CheckError.renamed, emit,
        shown, Event.renamed]
    | _ => simp [through, attempt, bind_def, Report.bind, Except.mapError, CheckError.renamed, fail]

theorem through_checkOneOf {branches : List Schema}
    (branch : ∀ node ∈ branches, check' (path.renamed view.rename) v node .oneOf =
      (check path v node .oneOf).through view) :
    checkOneOf check' (path.renamed view.rename) v branches =
      (checkOneOf check path v branches).through view := by
  unfold checkOneOf
  rw [through_bind, through_mapM]
  · congr 1
    funext results
    cases richest (results.filterMap id) with
    | none => rfl
    | some best =>
      have shown : view.shows (.branchSelected path best.1) = true := View.shows_of_ne (by simp)
      simp only [through_bind, through_pure]
      rw [through_emit shown]
      rfl
  · rintro ⟨node, i⟩ isEntry
    exact through_tryBranch (branch node (List.fst_mem_of_mem_zipIdx isEntry))

theorem shows_step (differs : Differs view S d d') (insideShows : Shows view S inside inside')
    (acrossShows : Shows view S across across') :
    Shows view S (d.step inside across) (d'.step inside' across') := by
  intro path v schema parent inScope
  unfold step
  rw [differs.document]
  cases resolved : d.document.resolve schema with
  | error cause => rfl
  | ok target =>
    have inTarget {node : Schema} (isNode : node ∈ target.shape.nodes) : S node :=
      differs.closed schema node inScope ⟨target, resolved, isNode⟩
    simp only [Except.mapError, ofExcept_ok, pure_bind]
    split
    · exact (through_checkNull schema target).symm
    cases shape : target.shape with
    | string rule => exact (through_checkString rule).symm
    | number rule =>
      have texts := differs.texts schema target rule path inScope resolved shape
      exact (through_checkNumber texts).symm
    | boolean => exact through_checkBoolean.symm
    | array rule =>
      apply through_checkArray
      intro segment w
      exact insideShows _ w rule.items .array (inTarget (by simp [shape, Shape.nodes]))
    | object rule =>
      refine through_checkObject differs.document (differs.fate rule.additional parent) ?_
      intro node isNode segment w
      exact insideShows _ w node .object (inTarget (by rwa [shape]))
    | allOf branches =>
      apply through_checkAllOf
      intro node isBranch
      exact acrossShows path v node .allOf (inTarget (by rwa [shape]))
    | oneOf branches =>
      apply through_checkOneOf
      intro node isBranch
      exact acrossShows path v node .oneOf (inTarget (by rwa [shape]))
    | any => rfl
    | ref reference => rfl
    | unknown raw =>
      have shown : view.shows (.unsupportedShape path raw) = true := View.shows_of_ne (by simp)
      simp only [through_bind, through_pure]
      rw [through_emit shown]
      rfl

/-- Where two validators differ by no more than a view shows, so do their reports. -/
theorem validate_through (differs : Differs view S d d') (inScope : S schema) :
    d'.validate (path.renamed view.rename) v schema parent =
      (d.validate path v schema parent).through view := by
  have count : d'.nodeCount schema = d.nodeCount schema := by
    unfold nodeCount scope
    rw [differs.document]
  unfold validate
  rw [count]
  refine checkWithin_induction₂ (R := Shows view S) d d' ?_ ?_ _ _ path v schema parent inScope
  · exact fun _ _ _ _ _ => rfl
  · exact fun _ _ _ _ insideShows acrossShows => shows_step differs insideShows acrossShows

def switched (d : Validator) (logs rejects : Bool) : Validator :=
  { d with switches := { logUndeclared := logs, rejectUndeclared := rejects } }

theorem differs_of_rejects (d : Validator) :
    Differs {} (fun _ => True) (d.switched true true) (d.switched false true) where
  document := rfl
  closed _ _ _ _ := trivial
  texts _ _ _ _ _ _ _ := rfl
  fate rule parent keys := by
    unfold Additional.fate
    cases rule <;> grind [View.fate, switched, Switches.isStrict]

theorem differs_of_strips (d : Validator) :
    Differs { tellsStripped := false } (fun _ => True) (d.switched true false)
      (d.switched false false) where
  document := rfl
  closed _ _ _ _ := trivial
  texts _ _ _ _ _ _ _ := rfl
  fate rule parent keys := by
    unfold Additional.fate
    cases rule <;> grind [View.fate, switched, Switches.isStrict]

/-- The switch that logs undeclared keys only observes. It never changes the outcome of a check.
Where undeclared keys are rejected it does not change the log either, and elsewhere it adds nothing
but the warnings of keys that were left out. -/
theorem log_switch_observes (d : Validator) (path : Path) (v : Value) (schema : Schema)
    (parent : Parent) :
    (∀ rejects, ((d.switched true rejects).validate path v schema parent).outcome =
        ((d.switched false rejects).validate path v schema parent).outcome) ∧
      ((d.switched true true).validate path v schema parent).log =
        ((d.switched false true).validate path v schema parent).log ∧
      ((d.switched true false).validate path v schema parent).log.filter
          (fun e => !e.tellsStripped) =
        ((d.switched false false).validate path v schema parent).log := by
  have rejecting : (d.switched false true).validate path v schema parent =
      ((d.switched true true).validate path v schema parent).through {} :=
    validate_through (differs_of_rejects d) trivial
  have stripping : (d.switched false false).validate path v schema parent =
      ((d.switched true false).validate path v schema parent).through { tellsStripped := false } :=
    validate_through (differs_of_strips d) trivial
  rw [through_of_rename_eq_id rfl] at rejecting stripping
  refine ⟨fun rejects => ?_, ?_, ?_⟩
  · cases rejects with
    | true => rw [rejecting]
    | false => rw [stripping]
  · rw [rejecting]
    exact (List.filter_eq_self.mpr fun _ _ => rfl).symm
  · rw [stripping]
    rfl

end Validator

end ApiContract

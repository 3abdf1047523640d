import ApiContract.Proofs.Validation.Idempotence
import ApiContract.Proofs.Validation.ReadOnly
import ApiContract.Proofs.Validation.Verdicts

/-!
The entries of an accepted object.

An object rule makes an entry of each property that an input may set, in order of declaration, and
appends what it keeps of the members that are not declared, in the order of the input. What it keeps
of them is up to a policy of four rules (`Additional.policy`). No key is written twice, so the
result is determined entry by entry.
-/

namespace ApiContract

namespace Additional

variable {σ : Type}

def flag? : Additional σ → Option Bool
  | allowed flag => some flag
  | _ => none

def schema? : Additional σ → Option σ
  | schema node => some node
  | _ => none

/-- What becomes of undeclared keys, by the first rule that applies: forbidden keys are rejected or
logged where they are judged; allowed ones are copied where others would be rejected; a schema for
them is used; any others are rejected or logged where they are judged, and dropped elsewhere. Keys
are judged with a strict switch, outside of an intersection. -/
def policy (rule : Additional σ) (switches : Switches) (parent : Parent) : Fate σ :=
  let judged := parent ≠ .allOf ∧ switches.isStrict
  let verdict : Fate σ := if switches.rejectUndeclared then .reject else .warn
  if judged ∧ rule.flag? = some false then verdict
  else if switches.rejectUndeclared ∧ rule.flag? = some true then .copy
  else
    match rule.schema? with
    | some node => .check node
    | none => if judged then verdict else .drop

theorem fate_eq_policy {rule : Additional σ} {switches : Switches} {parent : Parent}
    {keys : List String} (some : keys ≠ []) :
    rule.fate switches parent keys = rule.policy switches parent := by
  unfold fate policy
  by_cases judged : parent ≠ .allOf ∧ switches.isStrict = true
  · cases rule with
    | unset => simp [some, judged, flag?, schema?]
    | allowed flag => cases flag <;> simp [some, judged, flag?, schema?]
    | schema node => simp [some, flag?, schema?]
  · cases rule with
    | unset => simp [some, judged, flag?, schema?]
    | allowed flag => cases flag <;> simp [some, judged, flag?, schema?]
    | schema node => simp [some, flag?, schema?]

end Additional

namespace Document

variable {document : Document} {node target : Schema}

/-- Whether the server assigns the value, by the node or by what it refers to. -/
def isReadOnly (document : Document) (node : Schema) : Bool :=
  node.readOnly || (document.resolve node).toOption.any Schema.readOnly

/-- What stands for a value that is missing: the default of the node or else of what it refers
to. -/
def defaultOf? (document : Document) (node : Schema) : Option Value :=
  node.default? <|> (document.resolve node).toOption.bind Schema.default?

/-- Whether the node or what it refers to accepts anything. -/
def isAny (document : Document) (node : Schema) : Bool :=
  (document.resolve node).toOption.any Schema.isAny

end Document

namespace ObjectRule

/-- The declared properties that an input may set, in order. -/
def writableProperties (rule : ObjectRule Schema) (document : Document) : List (String × Schema) :=
  rule.properties.filter fun e => !document.isReadOnly e.2

/-- The members of an object that are not declared, in order. -/
def undeclared (rule : ObjectRule Schema) (members : List (String × Value)) :
    List (String × Value) :=
  members.filter fun e => e.1 ∉ Entries.keys rule.properties

end ObjectRule

namespace Validator

variable {d : Validator} {document : Document} {properties : List (String × Schema)}
  {check : Check} {path : Path} {v w : Value} {schema : Schema} {parent : Parent}
  {rule : ObjectRule Schema} {p : Declared} {ps : List Declared}
  {results : List (Option (String × Value))}
  {members undeclared extra entries : List (String × Value)}

theorem Declared.isReadOnly_eq (resolved : document.resolve p.node = .ok p.target) :
    p.isReadOnly = document.isReadOnly p.node := by
  simp [Declared.isReadOnly, Document.isReadOnly, resolved, Except.toOption]

theorem Declared.default?_eq (resolved : document.resolve p.node = .ok p.target) :
    p.default? = document.defaultOf? p.node := by
  simp [Declared.default?, Document.defaultOf?, resolved, Except.toOption]

theorem Declared.isAny_target (resolved : document.resolve p.node = .ok p.target) :
    p.target.isAny = document.isAny p.node := by
  simp [Document.isAny, resolved, Except.toOption]

/-- The properties that are checked are those that an input may set. -/
theorem map_declared (resolved : declared document rule.properties = .ok ps) :
    ps.map (fun p => (p.name, p.node)) = rule.writableProperties document := by
  obtain ⟨all, entries, rfl⟩ := declared_eq_ok.mp resolved
  unfold ObjectRule.writableProperties
  clear resolved
  generalize rule.properties = properties at entries
  induction entries with
  | nil => rfl
  | @cons e p properties all first _ ih =>
    obtain ⟨name, node⟩ := e
    obtain ⟨rfl, rfl, target⟩ := first
    rw [List.filter_cons, List.filter_cons, Declared.isReadOnly_eq target]
    split <;> simp [ih]

theorem filter_undeclared (resolved : declared document rule.properties = .ok ps)
    (writable : ∀ key ∈ Entries.keys members, rule.isReadOnly document key = false) :
    (members.filter fun e => ps.all fun p => p.name ≠ e.1) = rule.undeclared members := by
  refine List.filter_congr fun e isMember => ?_
  rw [Bool.eq_iff_iff, List.all_eq_true, decide_eq_true_iff]
  constructor
  · -- A key that is declared and not checked would be read-only.
    intro other isDeclared
    obtain ⟨⟨name, node⟩, isEntry, same⟩ := List.mem_map.mp isDeclared
    obtain rfl : name = e.1 := same
    have mayBeSet := writable e.1 (List.mem_map.mpr ⟨e, isMember, rfl⟩)
    rw [ObjectRule.isReadOnly, List.any_eq_false] at mayBeSet
    have isWritable : (e.1, node) ∈ rule.writableProperties document := by
      refine List.mem_filter.mpr ⟨isEntry, ?_⟩
      simpa [Document.isReadOnly] using mayBeSet _ isEntry
    rw [← map_declared resolved] at isWritable
    obtain ⟨p, isChecked, same⟩ := List.mem_map.mp isWritable
    exact of_decide_eq_true (other p isChecked) (Prod.mk.inj same).1
  · intro notDeclared p isChecked
    refine decide_eq_true fun same => notDeclared ?_
    obtain ⟨isEntry, -⟩ := mem_properties_of_mem_declared resolved isChecked
    exact List.mem_map.mpr ⟨_, isEntry, same⟩

theorem keys_results_sublist (named : Named ps results) :
    ((results.filterMap id).map Prod.fst).Sublist (ps.map Declared.name) := by
  induction named with
  | nil => exact .slnil
  | @cons p result ps results name _ ih =>
    cases result with
    | none => exact ih.cons p.name
    | some e =>
      have key : e.1 = p.name := name e rfl
      rw [List.filterMap_cons_some (f := id) rfl, List.map_cons, List.map_cons, key]
      exact ih.cons_cons p.name

theorem keys_checkUndeclared
    (accepted : (d.checkUndeclared check path v parent rule undeclared).outcome = .ok extra) :
    (extra.map Prod.fst).Sublist (undeclared.map Prod.fst) := by
  by_cases strips : rule.additional.Strips d.switches parent
  · rw [outcome_checkUndeclared_of_strips strips] at accepted
    obtain rfl := Except.ok.inj accepted
    exact List.nil_sublist _
  · rw [keys_checkUndeclared_of_not_strips strips accepted]

/-- An accepted object has each key once, if the input and the declared properties do. -/
theorem distinct_of_checkObject_eq_ok (keyed : Entries.Distinct rule.properties)
    (distinct : Entries.Distinct members)
    (accepted : (d.checkObject check path (.object members) rule parent).outcome =
      .ok (.object entries)) : Entries.Distinct entries := by
  obtain ⟨_, ps, results, extra, isObject, resolved, related, kept, same⟩ :=
    checkObject_eq_ok.mp accepted
  obtain rfl := Value.object.inj isObject
  obtain rfl := Value.object.inj same
  have named : Named ps results := related.imp fun _ _ => name_of_checkProperty_eq_ok
  have extraKeys := keys_checkUndeclared kept
  unfold Entries.Distinct Entries.keys at *
  rw [List.map_append, List.nodup_append]
  refine ⟨(nodup_names_of_declared keyed resolved).sublist (keys_results_sublist named), ?_, ?_⟩
  · exact (distinct.sublist (List.filter_sublist.map Prod.fst)).sublist extraKeys
  · rintro key isOwn _ isExtra rfl
    obtain ⟨e, isResult, rfl⟩ := List.mem_map.mp isOwn
    obtain ⟨p, isChecked, name⟩ := named.exists_of_mem isResult
    obtain ⟨member, isUndeclared, sameKey⟩ := List.mem_map.mp (extraKeys.subset isExtra)
    have other := List.all_eq_true.mp (List.mem_filter.mp isUndeclared).2 p isChecked
    exact of_decide_eq_true other (name.symm.trans sameKey.symm)

/-- What an accepted object has for a property that may be set: its member as it is coerced, or
without a member a default, unless the property is required. -/
inductive Supplies (d : Validator) (path : Path) (rule : ObjectRule Schema)
    (members : List (String × Value)) : String × Schema → Option (String × Value) → Prop
  | coerced {name node v w} : Entries.get? members name = some v →
      (d.validate (path.child (.key name)) v node .object).outcome = .ok w →
      Supplies d path rule members (name, node) (some (name, w))
  | filled {name node w} : Entries.get? members name = none → name ∉ rule.required →
      d.document.defaultOf? node = some w →
      Supplies d path rule members (name, node) (some (name, w))
  | absent {name node} : Entries.get? members name = none → name ∉ rule.required →
      d.document.defaultOf? node = none → Supplies d path rule members (name, node) none
  | any {name node} : Entries.get? members name = none → name ∈ rule.required →
      d.document.isAny node = true → Supplies d path rule members (name, node) none

/-- What an accepted object keeps of its undeclared members. -/
inductive Keeps (d : Validator) (path : Path) (rule : ObjectRule Schema) (parent : Parent)
    (undeclared : List (String × Value)) : List (String × Value) → Prop
  | none : undeclared = [] → Keeps d path rule parent undeclared []
  | copied : rule.additional.policy d.switches parent = .copy →
      Keeps d path rule parent undeclared undeclared
  | coerced {node} {extra : List (String × Value)} :
      rule.additional.policy d.switches parent = .check node →
      List.Forall₂ (fun e result => result.1 = e.1 ∧
        (d.validate (path.child (.key e.1)) e.2 node .object).outcome = .ok result.2)
        undeclared extra → Keeps d path rule parent undeclared extra
  | stripped : rule.additional.policy d.switches parent = .warn ∨
      rule.additional.policy d.switches parent = .drop → Keeps d path rule parent undeclared []

/-- The entries that an accepted object consists of: what the properties supply, in order of
declaration, and then what is kept of the undeclared members. -/
inductive ConsistsOf (d : Validator) (path : Path) (rule : ObjectRule Schema) (parent : Parent)
    (members : List (String × Value)) : List (String × Value) → Prop
  | intro {results : List (Option (String × Value))} {extra : List (String × Value)} :
      List.Forall₂ (d.Supplies path rule members) (rule.writableProperties d.document) results →
      d.Keeps path rule parent (rule.undeclared members) extra →
      ConsistsOf d path rule parent members (results.filterMap id ++ extra)

theorem supplies_of_checkProperty_eq_ok {result : Option (String × Value)}
    (resolved : d.document.resolve p.node = .ok p.target)
    (accepted : (checkProperty d.validate path rule.required members p).outcome = .ok result) :
    d.Supplies path rule members (p.name, p.node) result := by
  cases found : Entries.get? members p.name with
  | some v =>
    obtain ⟨w, passed, rfl⟩ := (checkProperty_eq_ok_of_some found).mp accepted
    exact .coerced found passed
  | none =>
    rcases (checkProperty_eq_ok_of_none found).mp accepted with
      ⟨isRequired, isAny, rfl⟩ | ⟨optional, rfl⟩
    · exact .any found isRequired (Declared.isAny_target resolved ▸ isAny)
    · rw [Declared.default?_eq resolved]
      cases default : d.document.defaultOf? p.node with
      | some w => exact .filled found optional default
      | none => exact .absent found optional default

theorem keeps_of_checkUndeclared_eq_ok
    (accepted : (d.checkUndeclared d.validate path v parent rule undeclared).outcome = .ok extra) :
    d.Keeps path rule parent undeclared extra := by
  by_cases none : undeclared = []
  · subst none
    obtain rfl : [] = extra := by simpa [checkUndeclared, Additional.fate] using accepted
    exact .none rfl
  have some : undeclared.map Prod.fst ≠ [] := mt List.map_eq_nil_iff.mp none
  have policy : rule.additional.fate d.switches parent (undeclared.map Prod.fst) =
      rule.additional.policy d.switches parent := Additional.fate_eq_policy some
  cases fate : rule.additional.fate d.switches parent (undeclared.map Prod.fst) with
  | reject =>
    simp only [checkUndeclared, fate] at accepted
    exact absurd accepted refuse_ne_ok
  | copy =>
    obtain rfl : undeclared = extra := by simpa [checkUndeclared, fate] using accepted
    exact .copied (policy ▸ fate)
  | check node => exact .coerced (policy ▸ fate) ((checkUndeclared_eq_ok_of_check fate).mp accepted)
  | warn =>
    obtain rfl : [] = extra := by simpa [checkUndeclared, fate] using accepted
    exact .stripped (.inl (policy ▸ fate))
  | drop =>
    obtain rfl : [] = extra := by simpa [checkUndeclared, fate] using accepted
    exact .stripped (.inr (policy ▸ fate))

theorem consistsOf_of_checkObject_eq_ok
    (writable : ∀ key ∈ Entries.keys members, rule.isReadOnly d.document key = false)
    (accepted : (d.checkObject d.validate path (.object members) rule parent).outcome = .ok w) :
    ∃ entries, w = .object entries ∧ d.ConsistsOf path rule parent members entries := by
  obtain ⟨_, ps, results, extra, isObject, resolved, related, kept, rfl⟩ :=
    checkObject_eq_ok.mp accepted
  obtain rfl := Value.object.inj isObject
  rw [filter_undeclared resolved writable] at kept
  refine ⟨_, rfl, .intro ?_ (keeps_of_checkUndeclared_eq_ok kept)⟩
  rw [← map_declared resolved, List.forall₂_map_left_iff]
  refine Outcome.forall₂_imp_of_mem related fun p isChecked result _ passed => ?_
  exact supplies_of_checkProperty_eq_ok (mem_properties_of_mem_declared resolved isChecked).2 passed

/-- An accepted object without read-only members consists of what its properties supply and of what
the policy keeps of its other members, in this order and each key once. -/
theorem accepted_object_consists (d : Validator) (keyed : Entries.Distinct rule.properties)
    (shapes : d.document.Shapes schema (.object rule)) (distinct : Entries.Distinct members)
    (writable : ∀ key ∈ Entries.keys members, rule.isReadOnly d.document key = false)
    (accepted : (d.validate path (.object members) schema parent).outcome = .ok w) :
    ∃ entries, w = .object entries ∧ Entries.Distinct entries ∧
      d.ConsistsOf path rule parent members entries := by
  obtain ⟨target, resolved, shape⟩ := shapes
  rw [outcome_validate_object resolved shape] at accepted
  obtain ⟨entries, rfl, consists⟩ := consistsOf_of_checkObject_eq_ok writable accepted
  exact ⟨entries, rfl, distinct_of_checkObject_eq_ok keyed distinct accepted, consists⟩

/-- A shelf whose size has a default behind a reference, whose identifier the server assigns, and
whose note may be anything. Other keys are flags. -/
def shelfRule : ObjectRule Schema where
  properties := [("size", .reference "Size"), ("id", .asReadOnly .string), ("label", .string),
    ("note", .any), ("used", .boolean)]
  required := ["id", "label", "note"]
  additional := .schema .boolean

def shelf : Schema := .plain (.object shelfRule)

def shelfKeeper : Validator where
  document := { schemas := [("Size", .withDefault .string (.string "small"))] }
  switches := { rejectUndeclared := true }

def givenShelf : List (String × Value) :=
  [("open", .string "1"), ("used", .string "true"), ("label", .string "A"), ("high", .bool false)]

def acceptedShelf : List (String × Value) :=
  [("size", .string "small"), ("label", .string "A"), ("used", .bool true), ("open", .bool true),
    ("high", .bool false)]

theorem acceptedShelf_consists :
    Entries.Distinct shelfRule.properties ∧
      shelfKeeper.document.Shapes shelf (.object shelfRule) ∧ Entries.Distinct givenShelf ∧
      (∀ key ∈ Entries.keys givenShelf, shelfRule.isReadOnly shelfKeeper.document key = false) ∧
      (shelfKeeper.validate { root := "body" } (.object givenShelf) shelf .unknown).outcome =
        .ok (.object acceptedShelf) ∧
      Entries.Distinct acceptedShelf ∧
      shelfKeeper.ConsistsOf { root := "body" } shelfRule .unknown givenShelf acceptedShelf := by
  have keyed : Entries.Distinct shelfRule.properties := by decide
  have shapes : shelfKeeper.document.Shapes shelf (.object shelfRule) := ⟨shelf, rfl, rfl⟩
  have distinct : Entries.Distinct givenShelf := by decide
  have writable : ∀ key ∈ Entries.keys givenShelf,
      shelfRule.isReadOnly shelfKeeper.document key = false := by decide
  have checked : (shelfKeeper.checkWithin 1 2 { root := "body" } (.object givenShelf) shelf
      .unknown).outcome = .ok (.object acceptedShelf) := rfl
  have accepted := validate_outcome_of_checkWithin checked (by simp)
  obtain ⟨entries, same, once, consists⟩ :=
    accepted_object_consists shelfKeeper keyed shapes distinct writable accepted
  obtain rfl := Value.object.inj same
  exact ⟨keyed, shapes, distinct, writable, accepted, once, consists⟩

end Validator

end ApiContract

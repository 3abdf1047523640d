import ApiContract.Proofs.Validation.Members
import ApiContract.Proofs.Validation.Retention
import Mathlib.Data.List.Nodup

/-!
Objects without an optional member.

A property that is missing is filled with its default as it stands in the schema; a member is checked
and coerced. So an object is accepted with the default as a member if it is accepted without the
member and the default is accepted by itself, and the results differ in that member: one has what
the default is coerced to, and the other has the default.
-/

namespace ApiContract

namespace Entries

variable {α : Type} {es rest : Entries α} {key other : String} {a b : α}

/-- The entries under other keys. -/
def without (es : Entries α) (key : String) : Entries α := es.filter fun e => e.1 ≠ key

theorem get?_without_of_ne (ne : other ≠ key) : get? (without es key) other = get? es other :=
  get?_filter_keys es (fun k => k ≠ key) (by simp [ne])

theorem get?_without_self : get? (without es key) key = none :=
  get?_eq_none fun _ isEntry => of_decide_eq_true (List.mem_filter.mp isEntry).2

theorem insert_append (absent : key ∉ keys es) :
    insert (es ++ (key, a) :: rest) key b = es ++ (key, b) :: rest := by
  induction es with
  | nil => simp [insert]
  | cons e es ih =>
    obtain ⟨k, c⟩ := e
    obtain ⟨ne, later⟩ := not_or.mp (mt List.mem_cons.mpr absent)
    rw [List.cons_append, insert, if_neg (Ne.symm ne), ih later, List.cons_append]

theorem exists_append_of_get? (found : get? es key = some a) :
    ∃ early late, es = early ++ (key, a) :: late ∧ key ∉ keys early := by
  induction es with
  | nil => cases found
  | cons e es ih =>
    obtain ⟨k, c⟩ := e
    by_cases same : k = key
    · obtain ⟨rfl, rfl⟩ : k = key ∧ c = a := ⟨same, by simpa [get?, same] using found⟩
      exact ⟨[], es, rfl, List.not_mem_nil⟩
    · obtain ⟨early, late, rfl, absent⟩ := ih (by simpa [get?, same] using found)
      exact ⟨(k, c) :: early, late, rfl, by simp [Ne.symm same, absent]⟩

theorem get?_append_of_not_mem (absent : key ∉ keys es) :
    get? (es ++ (key, a) :: rest) key = some a := by
  have others (e : String × α) (isEntry : e ∈ es) : e.1 ≠ key := by
    intro same
    exact absent (List.mem_map.mpr ⟨e, isEntry, same⟩)
  rw [get?_append others, get?, if_pos rfl]

theorem insert_eq_self_iff (found : get? es key = some a) : insert es key b = es ↔ b = a := by
  constructor
  · intro same
    have inserted := get?_insert_self es key b
    rw [same, found] at inserted
    exact (Option.some.inj inserted).symm
  · rintro rfl
    obtain ⟨early, late, rfl, absent⟩ := exists_append_of_get? found
    exact insert_append absent

end Entries

namespace Validator

variable {d : Validator} {check : Check} {path : Path} {v w other default coerced : Value}
  {schema node : Schema} {parent : Parent} {rule : ObjectRule Schema} {p : Declared}
  {ps before after : List Declared} {name : String}
  {members undeclared extra given entries : List (String × Value)}

theorem forall₂_append_cons_iff {α β : Type} {R : α → β → Prop} {before after : List α} {a : α}
    {outputs : List β} :
    List.Forall₂ R (before ++ a :: after) outputs ↔
      ∃ early b late, List.Forall₂ R before early ∧ R a b ∧ List.Forall₂ R after late ∧
        outputs = early ++ b :: late := by
  induction before generalizing outputs with
  | nil =>
    rw [List.nil_append, List.forall₂_cons_left_iff]
    constructor
    · rintro ⟨b, late, first, rest, rfl⟩
      exact ⟨[], b, late, .nil, first, rest, rfl⟩
    · rintro ⟨early, b, late, none, first, rest, rfl⟩
      obtain rfl := List.forall₂_nil_left_iff.mp none
      exact ⟨b, late, first, rest, rfl⟩
  | cons c before ih =>
    rw [List.cons_append, List.forall₂_cons_left_iff]
    constructor
    · rintro ⟨b, others, first, rest, rfl⟩
      obtain ⟨early, x, late, starts, at_, ends, rfl⟩ := ih.mp rest
      exact ⟨b :: early, x, late, .cons first starts, at_, ends, rfl⟩
    · rintro ⟨early, x, late, starts, at_, ends, rfl⟩
      obtain ⟨b, others, first, rest, rfl⟩ := List.forall₂_cons_left_iff.mp starts
      exact ⟨b, others ++ x :: late, first, ih.mpr ⟨others, x, late, rest, at_, ends, rfl⟩, rfl⟩

theorem checkUndeclared_eq_ok_congr :
    (d.checkUndeclared check path v parent rule undeclared).outcome = .ok extra ↔
      (d.checkUndeclared check path other parent rule undeclared).outcome = .ok extra := by
  cases fate : rule.additional.fate d.switches parent (undeclared.map Prod.fst) with
  | reject =>
    simp only [checkUndeclared, fate]
    exact iff_of_false refuse_ne_ok refuse_ne_ok
  | _ => simp only [checkUndeclared, fate]

/-- The results of the properties around one of them, and what is kept of undeclared members: all
that an object's result consists of but the entry of that property. -/
structure Surrounds (d : Validator) (check : Check) (path : Path) (rule : ObjectRule Schema)
    (parent : Parent) (members : List (String × Value)) (before : List Declared) (p : Declared)
    (after : List Declared) (early late : List (String × Value)) : Prop where
  earlier : ∃ results, List.Forall₂ (fun q result =>
    (checkProperty check path rule.required members q).outcome = .ok result) before results ∧
      early = results.filterMap id
  later : ∃ results extra, List.Forall₂ (fun q result =>
    (checkProperty check path rule.required members q).outcome = .ok result) after results ∧
      (d.checkUndeclared check path (.object members) parent rule (members.filter fun e =>
        (before ++ p :: after).all fun q => q.name ≠ e.1)).outcome = .ok extra ∧
      late = results.filterMap id ++ extra

theorem checkObject_eq_ok_at
    (resolved : declared d.document rule.properties = .ok (before ++ p :: after)) :
    (d.checkObject check path (.object members) rule parent).outcome = .ok w ↔
      ∃ early result late, d.Surrounds check path rule parent members before p after early late ∧
        (checkProperty check path rule.required members p).outcome = .ok result ∧
        w = .object (early ++ (result.toList ++ late)) := by
  rw [checkObject_eq_ok]
  constructor
  · rintro ⟨_, ps, results, extra, same, found, related, undeclared, rfl⟩
    obtain rfl := Value.object.inj same
    obtain rfl : before ++ p :: after = ps := Except.ok.inj (resolved.symm.trans found)
    obtain ⟨early, result, late, starts, here, ends, rfl⟩ := forall₂_append_cons_iff.mp related
    refine ⟨_, result, _, ⟨⟨early, starts, rfl⟩, late, extra, ends, undeclared, rfl⟩, here, ?_⟩
    cases result <;> simp
  · rintro ⟨_, result, _, ⟨⟨early, starts, rfl⟩, late, extra, ends, undeclared, rfl⟩, here, rfl⟩
    refine ⟨members, _, early ++ result :: late, extra, rfl, resolved,
      forall₂_append_cons_iff.mpr ⟨early, result, late, starts, here, ends, rfl⟩, undeclared, ?_⟩
    cases result <;> simp

theorem exists_declared_append (keyed : Entries.Distinct rule.properties)
    (resolved : declared d.document rule.properties = .ok ps)
    (isProperty : (name, node) ∈ rule.properties) (writable : d.document.isReadOnly node = false) :
    ∃ before p after, ps = before ++ p :: after ∧ p.name = name ∧ p.node = node ∧
      d.document.resolve node = .ok p.target ∧ ∀ q ∈ before ++ after, q.name ≠ name := by
  obtain ⟨all, entries, -⟩ := declared_eq_ok.mp resolved
  obtain ⟨p, -, rfl, rfl, target⟩ := Outcome.exists_mem_right_of_forall₂ entries isProperty
  have isChecked : p ∈ ps := (mem_declared_iff resolved).mpr
    ⟨isProperty, target, (Declared.isReadOnly_eq target).trans writable⟩
  obtain ⟨before, after, rfl⟩ := List.append_of_mem isChecked
  refine ⟨before, p, after, rfl, rfl, rfl, target, ?_⟩
  have distinct := nodup_names_of_declared keyed resolved
  rw [List.map_append, List.map_cons, List.nodup_middle, List.nodup_cons, ← List.map_append]
    at distinct
  intro q isOther same
  exact distinct.1 (List.mem_map.mpr ⟨q, isOther, same⟩)

theorem Surrounds.congr {others early late : List (String × Value)}
    (surrounds : d.Surrounds check path rule parent members before p after early late)
    (same : ∀ q ∈ before ++ after, Entries.get? members q.name = Entries.get? others q.name)
    (undeclared : (members.filter fun e => (before ++ p :: after).all fun q => q.name ≠ e.1) =
      others.filter fun e => (before ++ p :: after).all fun q => q.name ≠ e.1) :
    d.Surrounds check path rule parent others before p after early late := by
  obtain ⟨⟨results, starts, rfl⟩, more, extra, ends, kept, rfl⟩ := surrounds
  refine ⟨⟨results, ?_, rfl⟩, more, extra, ?_, ?_, rfl⟩
  · apply Outcome.forall₂_imp_of_mem starts
    intro q isChecked result _ passed
    rwa [← checkProperty_congr (same q (List.mem_append_left _ isChecked))]
  · apply Outcome.forall₂_imp_of_mem ends
    intro q isChecked result _ passed
    rwa [← checkProperty_congr (same q (List.mem_append_right _ isChecked))]
  · rw [← undeclared]
    exact checkUndeclared_eq_ok_congr.mp kept

/-- The properties around one, and the undeclared members, do not see its member. -/
theorem surrounds_without_iff (others : ∀ q ∈ before ++ after, q.name ≠ p.name)
    {early late : List (String × Value)} :
    d.Surrounds check path rule parent (Entries.without given p.name) before p after early late ↔
      d.Surrounds check path rule parent given before p after early late := by
  have same (q : Declared) (isOther : q ∈ before ++ after) :
      Entries.get? (Entries.without given p.name) q.name = Entries.get? given q.name :=
    Entries.get?_without_of_ne (others q isOther)
  have undeclared : (Entries.without given p.name).filter
        (fun e => (before ++ p :: after).all fun q => q.name ≠ e.1) =
      given.filter fun e => (before ++ p :: after).all fun q => q.name ≠ e.1 := by
    rw [Entries.without, List.filter_filter]
    apply List.filter_congr
    intro e _
    rw [Bool.and_eq_left_iff_imp]
    intro isUndeclared
    have ne := List.all_eq_true.mp isUndeclared p (by simp)
    exact decide_eq_true (Ne.symm (of_decide_eq_true ne))
  constructor
  · intro surrounds
    exact surrounds.congr same undeclared
  · intro surrounds
    exact surrounds.congr (fun q isOther => (same q isOther).symm) undeclared.symm

theorem not_mem_keys_of_surrounds {early late : List (String × Value)}
    (surrounds : d.Surrounds check path rule parent members before p after early late)
    (others : ∀ q ∈ before ++ after, q.name ≠ p.name) : p.name ∉ Entries.keys early := by
  obtain ⟨⟨results, starts, rfl⟩, -⟩ := surrounds
  have named : Named before results := starts.imp fun _ _ => name_of_checkProperty_eq_ok
  intro isKey
  obtain ⟨e, isResult, same⟩ := List.mem_map.mp isKey
  obtain ⟨q, isChecked, name⟩ := named.exists_of_mem isResult
  exact others q (List.mem_append_left _ isChecked) (name.symm.trans same)

/-- An object in which a property has its default is accepted if the object without it is and the
default is, and the results differ in what the default is coerced to. -/
theorem checkObject_eq_ok_iff_without (keyed : Entries.Distinct rule.properties)
    (isProperty : (name, node) ∈ rule.properties) (optional : name ∉ rule.required)
    (writable : d.document.isReadOnly node = false)
    (defaults : d.document.defaultOf? node = some default)
    (sent : Entries.get? given name = some default) :
    (d.checkObject check path (.object given) rule parent).outcome = .ok w ↔
      ∃ entries coerced,
        (d.checkObject check path (.object (Entries.without given name)) rule parent).outcome =
            .ok (.object entries) ∧
          Entries.get? entries name = some default ∧
          (check (path.child (.key name)) default node .object).outcome = .ok coerced ∧
          w = .object (Entries.insert entries name coerced) := by
  cases resolved : declared d.document rule.properties with
  | error cause =>
    have unresolved {v w : Value} : (d.checkObject check path v rule parent).outcome ≠ .ok w := by
      intro accepted
      obtain ⟨_, _, _, _, -, found, -⟩ := checkObject_eq_ok.mp accepted
      cases resolved.symm.trans found
    exact iff_of_false unresolved fun ⟨_, _, accepted, _⟩ => unresolved accepted
  | ok ps =>
    obtain ⟨before, p, after, rfl, rfl, rfl, target, others⟩ :=
      exists_declared_append keyed resolved isProperty writable
    have filled (result : Option (String × Value)) :
        (checkProperty check path rule.required (Entries.without given p.name) p).outcome =
          .ok result ↔ result = some (p.name, default) := by
      rw [checkProperty_eq_ok_of_none Entries.get?_without_self, Declared.default?_eq target,
        defaults]
      simp [optional]
    simp only [checkObject_eq_ok_at resolved, checkProperty_eq_ok_of_some sent, filled,
      surrounds_without_iff others]
    constructor
    · rintro ⟨early, _, late, surrounds, ⟨coerced, passed, rfl⟩, rfl⟩
      have absent := not_mem_keys_of_surrounds surrounds others
      refine ⟨early ++ (p.name, default) :: late, coerced, ⟨early, _, late, surrounds, rfl, rfl⟩,
        Entries.get?_append_of_not_mem absent, passed, ?_⟩
      rw [Entries.insert_append absent]
      rfl
    · rintro ⟨_, coerced, ⟨early, _, late, surrounds, rfl, same⟩, -, passed, rfl⟩
      obtain rfl := Value.object.inj same
      have absent := not_mem_keys_of_surrounds surrounds others
      refine ⟨early, _, late, surrounds, ⟨coerced, passed, rfl⟩, ?_⟩
      rw [Option.toList_some, List.singleton_append, Entries.insert_append absent]
      rfl

/-- For an optional property that an input may set and that has a default, the object with the
default as a member is accepted exactly if the object without the member is, and the default is
accepted by itself. Without the member the result has the default as it stands in the schema, and
with it what the default is coerced to; the results are equal just if the default is kept. -/
theorem omission_gives_default (d : Validator) (path : Path) (parent : Parent)
    (keyed : Entries.Distinct rule.properties) (shapes : d.document.Shapes schema (.object rule))
    (isProperty : (name, node) ∈ rule.properties) (optional : name ∉ rule.required)
    (writable : d.document.isReadOnly node = false)
    (defaults : d.document.defaultOf? node = some default)
    (sent : Entries.get? given name = some default) (w : Value) :
    (d.validate path (.object given) schema parent).outcome = .ok w ↔
      ∃ entries coerced,
        (d.validate path (.object (Entries.without given name)) schema parent).outcome =
            .ok (.object entries) ∧
          Entries.get? entries name = some default ∧
          (d.validate (path.child (.key name)) default node .object).outcome = .ok coerced ∧
          w = .object (Entries.insert entries name coerced) ∧
          (w = .object entries ↔ coerced = default) := by
  obtain ⟨target, resolved, shape⟩ := shapes
  rw [outcome_validate_object resolved shape, outcome_validate_object resolved shape,
    checkObject_eq_ok_iff_without keyed isProperty optional writable defaults sent]
  refine exists_congr fun entries => exists_congr fun coerced => ?_
  refine and_congr_right fun _ => and_congr_right fun found => and_congr_right fun _ => ?_
  rw [iff_self_and]
  rintro rfl
  rw [Value.object.injEq]
  exact Entries.insert_eq_self_iff found

/-- A ticket whose options have a default behind a reference, with a flag as text and a key that
the options do not declare. -/
def optionsDefault : Value := .object [("open", .string "1"), ("size", .null)]

def ticketKeeper : Validator where
  document :=
    { schemas := [("Options", .withDefault (.object [("open", .boolean)] []) optionsDefault)] }

def ticketRule : ObjectRule Schema where
  properties := [("options", .reference "Options"), ("title", .string)]
  required := ["title"]

def givenTicket : List (String × Value) := [("title", .string "A"), ("options", optionsDefault)]

theorem ticket_gives_options :
    Entries.Distinct ticketRule.properties ∧
      ticketKeeper.document.Shapes (.plain (.object ticketRule)) (.object ticketRule) ∧
      ("options", .reference "Options") ∈ ticketRule.properties ∧
      "options" ∉ ticketRule.required ∧
      ticketKeeper.document.isReadOnly (.reference "Options") = false ∧
      ticketKeeper.document.defaultOf? (.reference "Options") = some optionsDefault ∧
      Entries.get? givenTicket "options" = some optionsDefault ∧
      (ticketKeeper.validate { root := "body" } (.object givenTicket) (.plain (.object ticketRule))
        .unknown).outcome =
          .ok (.object [("options", .object [("open", .bool true)]), ("title", .string "A")]) ∧
      ∃ entries, (ticketKeeper.validate { root := "body" } (.object [("title", .string "A")])
          (.plain (.object ticketRule)) .unknown).outcome = .ok (.object entries) ∧
        Entries.get? entries "options" = some optionsDefault := by
  have keyed : Entries.Distinct ticketRule.properties := by decide
  have shapes : ticketKeeper.document.Shapes (.plain (.object ticketRule)) (.object ticketRule) :=
    ⟨_, rfl, rfl⟩
  have isProperty : ("options", Schema.reference "Options") ∈ ticketRule.properties :=
    List.mem_cons_self
  have optional : "options" ∉ ticketRule.required := by decide
  have checked : (ticketKeeper.checkWithin 1 3 { root := "body" } (.object givenTicket)
      (.plain (.object ticketRule)) .unknown).outcome =
        .ok (.object [("options", .object [("open", .bool true)]), ("title", .string "A")]) := rfl
  have accepted := validate_outcome_of_checkWithin checked (by simp)
  obtain ⟨entries, coerced, omitted, filled, -⟩ := (omission_gives_default ticketKeeper
    { root := "body" } .unknown keyed shapes isProperty optional rfl rfl rfl _).mp accepted
  exact ⟨keyed, shapes, isProperty, optional, rfl, rfl, rfl, accepted, entries, omitted, filled⟩

/-- A flag whose default is a text is filled with the text, and sent as this text it is a flag. -/
theorem text_not_coerced :
    (({} : Validator).validate { root := "q" } (.object [("open", .string "true")])
        (.object [("open", .withDefault .boolean (.string "true"))] []) .unknown).outcome =
          .ok (.object [("open", .bool true)]) ∧
      (({} : Validator).validate { root := "q" } (.object [])
        (.object [("open", .withDefault .boolean (.string "true"))] []) .unknown).outcome =
          .ok (.object [("open", .string "true")]) ∧
      Value.object [("open", .bool true)] ≠ .object [("open", .string "true")] := by
  refine ⟨(checkWithin_below_validate 1 2).outcome_eq_ok rfl,
    (checkWithin_below_validate 1 1).outcome_eq_ok rfl, by simp⟩

end Validator

end ApiContract

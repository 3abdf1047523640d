import ApiContract.Proofs.Schema.Respelling
import ApiContract.Proofs.Validation.Strictness

/-!
What the spelling of a union with null means for checks.

A union that is left with one branch besides null is checked as an intersection of that branch, and
as a union of it where it is spelled with the flag. The two accept alike, to the same result, but
for undeclared keys: those of an object in a union are judged, those of one in an intersection are
not.
-/

namespace ApiContract

namespace Validator

open Report

variable {d : Validator} {check : Check} {path : Path} {v w : Value} {parent : Parent}
  {schema branch : Schema} {rule : ObjectRule Schema} {members : List (String × Value)}

theorem checkAllOf_singleton :
    (checkAllOf check path v [branch]).outcome = .ok w ↔
      (check path v branch .allOf).outcome = .ok w := by
  rw [checkAllOf_eq_ok]
  simp [List.forall₂_cons_left_iff]

theorem checkOneOf_singleton :
    (checkOneOf check path v [branch]).outcome = .ok w ↔
      (check path v branch .oneOf).outcome = .ok w := by
  constructor
  · intro accepted
    simpa using exists_branch_of_checkOneOf_eq_ok accepted
  · intro accepted
    refine checkOneOf_eq_ok.mpr ⟨[some (0, w)], ?_, 0, rfl⟩
    simpa [List.forall₂_cons_left_iff] using tryBranch_eq_ok.mpr (.inl ⟨w, accepted, rfl⟩)

theorem checkUndeclared_of_not_reject {undeclared : List (String × Value)}
    (kept : rule.additional.fate d.switches parent (undeclared.map Prod.fst) ≠ .reject) :
    (d.checkUndeclared check path v parent rule undeclared).outcome =
      (d.checkUndeclared check path v .allOf rule undeclared).outcome := by
  unfold checkUndeclared
  rcases Additional.fate_of_ne_reject kept with same | ⟨warn, drop⟩
  · simp only [same]
  · simp only [warn, drop]
    rfl

theorem checkObject_eq_ok_iff_allOf :
    (d.checkObject check path (.object members) rule parent).outcome = .ok w ↔
      (d.checkObject check path (.object members) rule .allOf).outcome = .ok w ∧
        ¬d.Excess rule parent members := by
  constructor
  · intro accepted
    obtain ⟨_, ps, results, extra, isObject, resolved, properties, passed, rfl⟩ :=
      checkObject_eq_ok.mp accepted
    obtain rfl := Value.object.inj isObject
    have kept : ¬d.Excess rule parent members := by
      rw [← fate_eq_reject_iff_excess resolved]
      intro rejects
      exact IsAccepted.not_isRefused ⟨extra, passed⟩ (isRefused_checkUndeclared_of_fate rejects)
    rw [checkUndeclared_of_not_reject (mt (fate_eq_reject_iff_excess resolved).mp kept)] at passed
    exact ⟨checkObject_eq_ok.mpr
      ⟨members, ps, results, extra, rfl, resolved, properties, passed, rfl⟩, kept⟩
  · rintro ⟨accepted, kept⟩
    obtain ⟨_, ps, results, extra, isObject, resolved, properties, passed, rfl⟩ :=
      checkObject_eq_ok.mp accepted
    obtain rfl := Value.object.inj isObject
    rw [← checkUndeclared_of_not_reject (mt (fate_eq_reject_iff_excess resolved).mp kept)] at passed
    exact checkObject_eq_ok.mpr
      ⟨members, ps, results, extra, rfl, resolved, properties, passed, rfl⟩

theorem outcome_validate_of_not_object
    (other : ∀ rule members, v = .object members → ¬d.document.Shapes schema (.object rule)) :
    (d.validate path v schema parent).outcome = (d.validate path v schema .allOf).outcome := by
  refine validate_outcome.trans (Eq.trans ?_ validate_outcome.symm)
  unfold step
  cases resolved : d.document.resolve schema with
  | error cause => rfl
  | ok target =>
    cases shape : target.shape with
    | object rule =>
      cases v with
      | object members => exact absurd ⟨target, resolved, shape⟩ (other rule members rfl)
      | _ => simp [Except.mapError, shape, checkObject]
    | _ => simp [Except.mapError, shape]

/-- The parent decides about excess keys of objects, and about nothing else. -/
theorem validate_eq_ok_iff_allOf :
    (d.validate path v schema parent).outcome = .ok w ↔
      (d.validate path v schema .allOf).outcome = .ok w ∧
        ∀ rule members, v = .object members → d.document.Shapes schema (.object rule) →
          ¬d.Excess rule parent members := by
  by_cases isObject : ∃ rule members, v = .object members ∧ d.document.Shapes schema (.object rule)
  · obtain ⟨rule, members, rfl, shapes⟩ := isObject
    obtain ⟨target, resolved, shape⟩ := id shapes
    rw [outcome_validate_object resolved shape, outcome_validate_object resolved shape,
      checkObject_eq_ok_iff_allOf]
    refine and_congr_right fun _ => ⟨fun kept other others same otherShapes => ?_, fun kept => ?_⟩
    · obtain rfl := Value.object.inj same
      obtain rfl := Shape.object.inj (shapes.unique otherShapes)
      exact kept
    · exact kept rule members rfl shapes
  · push Not at isObject
    rw [outcome_validate_of_not_object isObject, iff_self_and]
    intro _ rule members same shapes
    exact absurd shapes (isObject rule members same)

/-- The one branch that is left of a union is an object schema that rejects keys of the value. -/
def ExceedsRemainder (d : Validator) (ms : Entries Json) (v : Value) : Prop :=
  Json.stated? ms "$ref" = none ∧ ∃ only inner rule members, Schema.Collapses ms only ∧
    Schema.ofJson only = .ok inner ∧ d.document.Shapes inner (.object rule) ∧
    v = .object members ∧ d.Excess rule .oneOf members

/-- As a union of one branch a node accepts what it does as an intersection, less the objects with
keys that the branch rejects. -/
theorem validate_union_iff {node inner : Schema} (shape : node.shape = .allOf [inner]) :
    (d.validate path v { node with shape := .oneOf [inner] } parent).outcome = .ok w ↔
      (d.validate path v node parent).outcome = .ok w ∧
        ∀ rule members, v = .object members → d.document.Shapes inner (.object rule) →
          ¬d.Excess rule .oneOf members := by
  have resolved : d.document.resolve node = .ok node :=
    Document.resolve_of_not_isReference (by simp [Schema.IsReference, shape])
  have resolvedOther : d.document.resolve { node with shape := .oneOf [inner] } =
      .ok { node with shape := .oneOf [inner] } :=
    Document.resolve_of_not_isReference (by simp [Schema.IsReference])
  rw [validate_outcome, validate_outcome]
  cases isNull : v.isNull with
  | true =>
    obtain rfl := Value.eq_null_of_isNull isNull
    simp [step, resolved, resolvedOther, isNull, checkNull, Except.mapError]
  | false =>
    rw [outcome_step_allOf ⟨node, resolved, shape⟩ isNull,
      outcome_step_oneOf ⟨_, resolvedOther, rfl⟩ isNull, checkAllOf_singleton, checkOneOf_singleton]
    exact validate_eq_ok_iff_allOf

/-- The two spellings of a union with null accept alike and to the same result, if the one branch
that is left takes no other's place: all but the objects whose keys that branch rejects. -/
theorem respelled_accepts_iff {ms : Entries Json} {node other : Schema}
    (wellKeyed : Json.WellKeyed ms)
    (hasNull : ∃ key, Json.IsUnion key ∧ Json.admitsNull (ms.get? key) = true)
    (kept : Json.stated? ms "$ref" = none → ¬Schema.Overwrites ms)
    (loaded : Schema.ofJson (.object ms) = .ok node)
    (loadedOther : Schema.ofJson (.object (Json.respelled ms)) = .ok other) :
    ((d.validate path v other parent).outcome = .ok w ↔
      (d.validate path v node parent).outcome = .ok w ∧ ¬d.ExceedsRemainder ms v) ∧
    (d.switches.rejectUndeclared = false →
      ((d.validate path v other parent).outcome = .ok w ↔
        (d.validate path v node parent).outcome = .ok w)) := by
  have accepts : (d.validate path v other parent).outcome = .ok w ↔
      (d.validate path v node parent).outcome = .ok w ∧ ¬d.ExceedsRemainder ms v := by
    cases Schema.respells_of_ofJson wellKeyed hasNull kept loaded loadedOther with
    | same apart alike =>
      rw [alike, iff_self_and]
      rintro _ ⟨noRef, only, -, -, -, collapses, -⟩
      exact apart noRef only collapses
    | @collapsed only inner noRef collapses isInner shape alike =>
      rw [alike, validate_union_iff shape]
      refine and_congr_right fun _ => ⟨?_, ?_⟩
      · rintro fits ⟨-, also, again, rule, members, collapsesAlso, isInnerAgain, shapes, isObject,
          excess⟩
        obtain rfl := Option.some.inj (collapses.symm.trans collapsesAlso)
        obtain rfl := Except.ok.inj (isInner.symm.trans isInnerAgain)
        exact fits rule members isObject shapes excess
      · intro fits rule members isObject shapes excess
        exact fits
          ⟨noRef, only, inner, rule, members, collapses, isInner, shapes, isObject, excess⟩
  refine ⟨accepts, fun lenient => accepts.trans ?_⟩
  refine and_iff_left_of_imp fun _ exceeds => ?_
  obtain ⟨-, only, inner, rule, members, -, -, -, -, ⟨rejects, -⟩, -⟩ := exceeds
  exact Bool.false_ne_true (lenient.symm.trans rejects)

end Validator

namespace Schema

open Json

def badgeSchema : Json := withProperties [("level", constantText "staff")]

def badge : Schema :=
  plain (.object { properties := [("level", plain (.string { allowed := some ["staff"] }))] })

def badgeOrNull : Entries Json :=
  [("oneOf", .array [badgeSchema, .object [("type", .string "null")]])]

theorem keyed_badgeOrNull :
    ∀ branch ∈ [badgeSchema, .object [("type", .string "null")]], branch.Keyed := by
  simp [Json.Keyed, badgeSchema, withProperties, Entries.Distinct]

theorem wellKeyed_badgeOrNull : WellKeyed badgeOrNull where
  distinct := by simp [Entries.Distinct, badgeOrNull]
  branches isUnion := by
    cases isUnion with
    | oneOf => exact keyed_badgeOrNull
    | anyOf => simp [branchList, badgeOrNull, Entries.get?]

theorem ofJson_badgeSchema : ofJson badgeSchema = .ok badge := by
  rw [badgeSchema, ofJson_withProperties (by simp [Ordinary, dataKeys])]
  simp only [loadEntries, List.mapM_cons, List.mapM_nil, ofJson_constantText]
  rfl

theorem ofJson_badgeOrNull : ofJson (.object badgeOrNull) = .ok (allOf [badge]).asNullable := by
  have loads := ofJson_withUnion .oneOf keyed_badgeOrNull
  have isObject : isNullBranch badgeSchema = false := rfl
  have isNull : isNullBranch (.object [("type", .string "null")]) = true := rfl
  rw [List.filter_cons_of_pos (by simp [isObject]), List.filter_cons_of_neg (by simp [isNull]),
    List.filter_nil, List.mapM_cons, ofJson_badgeSchema] at loads
  exact loads

theorem ofJson_badgeOrNull_respelled :
    ofJson (.object (respelled badgeOrNull)) = .ok (oneOf [badge]).asNullable := by
  have loads : ofJson (withBranches "oneOf" [badgeSchema] true) = _ :=
    ofJson_flagged .oneOf
      (List.forall_mem_singleton.mpr (keyed_badgeOrNull badgeSchema List.mem_cons_self))
      (List.forall_mem_singleton.mpr rfl)
  rw [List.mapM_cons, ofJson_badgeSchema] at loads
  exact loads

end Schema

namespace Validator

def strayMembers : List (String × Value) := [("level", .string "staff"), ("color", .string "red")]

theorem stray_refused_when_respelled :
    Schema.ofJson (.object Schema.badgeOrNull) = .ok (Schema.allOf [.badge]).asNullable ∧
      Schema.ofJson (.object (Json.respelled Schema.badgeOrNull)) =
        .ok (Schema.oneOf [.badge]).asNullable ∧
      (({} : Validator).validate { root := "q" } (.object strayMembers)
        (Schema.oneOf [.badge]).asNullable .unknown).outcome =
          .ok (.object [("level", .string "staff")]) ∧
      (({} : Validator).rejecting.validate { root := "q" } (.object strayMembers)
        (Schema.allOf [.badge]).asNullable .unknown).outcome =
          .ok (.object [("level", .string "staff")]) ∧
      ¬(({} : Validator).rejecting.validate { root := "q" } (.object strayMembers)
        (Schema.oneOf [.badge]).asNullable .unknown).IsAccepted := by
  have hasNull : ∃ key, Json.IsUnion key ∧
      Json.admitsNull (Entries.get? Schema.badgeOrNull key) = true :=
    ⟨"oneOf", .oneOf, rfl⟩
  have kept : Json.stated? Schema.badgeOrNull "$ref" = none →
      ¬Schema.Overwrites Schema.badgeOrNull := by
    rintro - (⟨only, -, present⟩ | ⟨only, left, -⟩)
    · exact present rfl
    · cases left
  have exceeds : ({} : Validator).rejecting.ExceedsRemainder Schema.badgeOrNull
      (.object strayMembers) := by
    refine ⟨rfl, _, _, _, strayMembers, rfl, Schema.ofJson_badgeSchema, ⟨.badge, rfl, rfl⟩, rfl,
      ⟨rfl, by decide, .inl rfl⟩, "color", by decide, ?_⟩
    rintro p ⟨isEntry, -, -⟩ same
    have name : p.name = "level" := (Prod.mk.inj (List.mem_singleton.mp isEntry)).1
    exact absurd (name.symm.trans same) (by decide)
  refine ⟨Schema.ofJson_badgeOrNull, Schema.ofJson_badgeOrNull_respelled, ?_, ?_, ?_⟩
  · refine ((respelled_accepts_iff Schema.wellKeyed_badgeOrNull hasNull kept
      Schema.ofJson_badgeOrNull Schema.ofJson_badgeOrNull_respelled).2 rfl).mpr ?_
    exact (checkWithin_below_validate 2 2).outcome_eq_ok rfl
  · exact (checkWithin_below_validate 2 2).outcome_eq_ok rfl
  · rintro ⟨w, accepted⟩
    exact ((respelled_accepts_iff Schema.wellKeyed_badgeOrNull hasNull kept
      Schema.ofJson_badgeOrNull Schema.ofJson_badgeOrNull_respelled).1.mp accepted).2 exceeds

end Validator

namespace Schema

open Json

/-- An intersection that is stated next to a union with null. -/
def guestBesideStaff : Entries Json :=
  [("allOf", .array [constantText "guest"]),
    ("oneOf", .array [constantText "staff", .object [("type", .string "null")]])]

def constant (s : String) : Schema := plain (.string { allowed := some [s] })

theorem isNullBranch_normalSchema_constantText (s : String) :
    isNullBranch (normalSchema (constantText s)) = false := by
  rw [normalSchema_constantText]
  rfl

theorem ofJson_guestBesideStaff :
    ofJson (.object guestBesideStaff) = .ok (allOf [constant "staff"]).asNullable := by
  have union : normalMember "oneOf"
      (.array [constantText "staff", .object [("type", .string "null")]]) =
      .array [normalSchema (constantText "staff"),
        normalSchema (.object [("type", .string "null")])] :=
    normalMember_branches (by decide) _
  have isNull : isNullBranch (normalSchema (.object [("type", .string "null")])) = true := rfl
  have normal : normalSchema (.object guestBesideStaff) =
      withBranches "allOf" [normalSchema (constantText "staff")] true := by
    rw [normalSchema_object, normalMembers, listedMembers_eq_map rfl]
    simp [guestBesideStaff, union, flagNull, scanFlag, scanTypes, scanUnion, Entries.get?,
      Entries.swapRemove, Entries.insert, isNullBranch_normalSchema_constantText, isNull,
      withBranches]
  have loaded := ofJson_constantText "staff"
  rw [ofJson] at loaded
  rw [ofJson, normal, ofNormal_withBranches (by decide), List.mapM_cons, loaded]
  rfl

theorem ofJson_guestBesideStaff_respelled :
    ofJson (.object (respelled guestBesideStaff)) = .ok (allOf [constant "guest"]).asNullable := by
  have spelled : respelled guestBesideStaff =
      [("allOf", .array [constantText "guest"]), ("oneOf", .array [constantText "staff"]),
        ("nullable", .bool true)] := rfl
  have member {key : String} (isBranchKey : key ∈ branchKeys) (s : String) :
      normalMember key (.array [constantText s]) = .array [normalSchema (constantText s)] :=
    normalMember_branches isBranchKey _
  have flag : normalMember "nullable" (.bool true) = .bool true := rfl
  have normal : normalSchema (.object (respelled guestBesideStaff)) =
      .object [("allOf", .array [normalSchema (constantText "guest")]),
        ("oneOf", .array [normalSchema (constantText "staff")]), ("nullable", .bool true)] := by
    rw [spelled, normalSchema_object, normalMembers, listedMembers_eq_map rfl]
    simp [member (by decide : "allOf" ∈ branchKeys), member (by decide : "oneOf" ∈ branchKeys),
      flag, flagNull, scanFlag, scanTypes, scanUnion, Entries.get?,
      isNullBranch_normalSchema_constantText]
  have loaded := ofJson_constantText "guest"
  rw [ofJson] at loaded
  rw [ofJson, normal, ofNormal_allOf_beside_union, List.mapM_cons, loaded]
  rfl

end Schema

namespace Validator

open Report

/-- The intersection is lost in one spelling: a value that it turns down is accepted. -/
theorem staff_accepted_beside_guest :
    Schema.ofJson (.object Schema.guestBesideStaff) =
        .ok (Schema.allOf [.constant "staff"]).asNullable ∧
      Schema.ofJson (.object (Json.respelled Schema.guestBesideStaff)) =
        .ok (Schema.allOf [.constant "guest"]).asNullable ∧
      (({} : Validator).validate { root := "q" } (.string "staff")
        (Schema.allOf [.constant "staff"]).asNullable .unknown).outcome = .ok (.string "staff") ∧
      (({} : Validator).validate { root := "q" } (.string "staff")
        (Schema.allOf [.constant "guest"]).asNullable .unknown).IsRefused := by
  refine ⟨Schema.ofJson_guestBesideStaff, Schema.ofJson_guestBesideStaff_respelled, ?_, ?_⟩
  · exact (checkWithin_below_validate 2 1).outcome_eq_ok rfl
  · exact (checkWithin_below_validate 2 1).isRefused ⟨_, rfl⟩

end Validator

end ApiContract

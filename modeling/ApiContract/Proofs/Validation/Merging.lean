import ApiContract.Proofs.Validation.Members
import ApiContract.Proofs.Validation.Selection
import ApiContract.Proofs.Value.Merging

/-!
What an intersection makes of its branches.

The fold over the results of the branches merges two neighbours that are objects, and otherwise
goes on with the later one. An object is accepted as objects only, each with its keys once, and
another value as no object. So the results are all merged, or none is and the last one stays.
-/

namespace ApiContract

/-- An object has each of its keys once. -/
def Value.Keyed (v : Value) : Prop := ∀ es, v = .object es → Entries.Distinct es

namespace Validator

open Report

variable {d : Validator} {check inside across : Check} {path : Path} {v w first last : Value}
  {results : List Value} {branches : List Schema} {members : List (String × Value)}

theorem keyed_merge (keyed : v.Keyed) (later : w.Keyed) : (merge v w).Keyed := by
  cases v with
  | object members =>
    cases w with
    | object more =>
      rintro _ ⟨⟩
      exact (keyed members rfl).extend more
    | _ => exact later
  | _ => exact later

theorem keyed_foldl_merge (keyed : first.Keyed) (later : ∀ result ∈ results, result.Keyed) :
    (results.foldl merge first).Keyed := by
  induction results generalizing first with
  | nil => exact keyed
  | cons next results ih =>
    obtain ⟨ofNext, ofRest⟩ := List.forall_mem_cons.mp later
    exact ih (keyed_merge keyed ofNext) ofRest

/-- What is accepted at schemas whose properties are declared once has its keys once. -/
def KeepsKeyed (d : Validator) (check : Check) : Prop :=
  ∀ path v schema parent w, (∀ node, d.document.Reaches schema node → node.Keyed) →
    v.isNull = false → v.Keyed → (check path v schema parent).outcome = .ok w → w.Keyed

theorem keepsKeyed_giveUp (d : Validator) : d.KeepsKeyed giveUp := by
  intro path v schema parent w _ _ _ accepted
  simp [giveUp] at accepted

theorem keyed_of_checkAllOf (branch : ∀ node ∈ branches, ∀ w,
      (check path v node .allOf).outcome = .ok w → w.Keyed) (keyed : v.Keyed)
    (accepted : (checkAllOf check path v branches).outcome = .ok w) : w.Keyed := by
  obtain ⟨results, related, rfl⟩ := checkAllOf_eq_ok.mp accepted
  have each : ∀ result ∈ results, result.Keyed := by
    intro result isResult
    obtain ⟨node, isBranch, made⟩ := Outcome.exists_mem_left_of_forall₂ related isResult
    exact branch node isBranch result made
  cases results with
  | nil => exact keyed
  | cons first rest =>
    obtain ⟨ofFirst, ofRest⟩ := List.forall_mem_cons.mp each
    exact keyed_foldl_merge ofFirst ofRest

theorem keepsKeyed_step (acrossKeeps : d.KeepsKeyed across) :
    d.KeepsKeyed (d.step inside across) := by
  intro path v schema parent w keyedNodes present keyed stepped
  obtain ⟨target, resolved, accepted⟩ := step_eq_ok.mp stepped
  have inTarget {node : Schema} (isChild : node ∈ target.shape.nodes) (other : Schema)
      (reaches : d.document.Reaches node other) : other.Keyed :=
    keyedNodes other ((Document.reaches_of_leads ⟨target, resolved, isChild⟩).trans reaches)
  rcases accepted with ⟨isNull, -⟩ | ⟨-, accepts⟩
  · exact absurd isNull (by simp [present])
  cases accepts with
  | string _ coerced => cases StringRule.coerce_eq_ok_iff.mp coerced <;> rintro _ ⟨⟩
  | number _ _ => rintro _ ⟨⟩
  | boolean _ _ => rintro _ ⟨⟩
  | array _ accepted =>
    obtain ⟨_, _, rfl, -, -, rfl⟩ := checkArray_eq_ok.mp accepted
    rintro _ ⟨⟩
  | object shape accepted =>
    have declaredOnce := keyedNodes target (Document.reaches_of_resolve_eq_ok resolved) _ shape
    rintro entries rfl
    obtain ⟨members, -, -, -, rfl, -⟩ := checkObject_eq_ok.mp accepted
    exact distinct_of_checkObject_eq_ok declaredOnce (keyed members rfl) accepted
  | allOf shape accepted =>
    rw [shape] at inTarget
    refine keyed_of_checkAllOf (fun node isBranch w made => ?_) keyed accepted
    exact acrossKeeps path v node _ w (inTarget isBranch) present keyed made
  | oneOf shape accepted =>
    rw [shape] at inTarget
    obtain ⟨node, isBranch, made⟩ := exists_branch_of_checkOneOf_eq_ok accepted
    exact acrossKeeps path v node _ w (inTarget isBranch) present keyed made
  | any _ => exact keyed
  | unknown _ => exact keyed

theorem keyed_of_validate_eq_ok {schema : Schema} {parent : Parent}
    (keyedNodes : ∀ node, d.document.Reaches schema node → node.Keyed) (present : v.isNull = false)
    (keyed : v.Keyed) (accepted : (d.validate path v schema parent).outcome = .ok w) : w.Keyed :=
  checkWithin_induction d (keepsKeyed_giveUp d) (fun _ _ _ => keepsKeyed_step) (d.nodeCount schema)
    (v.depth + 1) path v schema parent w keyedNodes present keyed accepted

theorem foldl_merge_object (es : List (String × Value)) (lists : List (List (String × Value))) :
    (lists.map Value.object).foldl merge (.object es) =
      .object (lists.foldl Entries.extend es) := by
  induction lists generalizing es with
  | nil => rfl
  | cons more lists ih => exact ih (Entries.extend es more)

theorem merge_of_flat (flat : v.object? = none) (w : Value) : merge v w = w := by
  cases v with
  | object members => cases flat
  | _ => rfl

/-- As long as no result is an object, the last one stays. -/
theorem foldl_merge_of_flat (flat : ∀ result ∈ first :: results, result.object? = none)
    (isLast : (first :: results).getLast? = some last) : results.foldl merge first = last := by
  induction results generalizing first with
  | nil => exact Option.some.inj isLast
  | cons next results ih =>
    obtain ⟨ofFirst, others⟩ := List.forall_mem_cons.mp flat
    rw [List.foldl_cons, merge_of_flat ofFirst]
    exact ih others (by rwa [List.getLast?_cons_cons] at isLast)

theorem exists_map_object (objects : ∀ result ∈ results, ∃ es, result = Value.object es) :
    ∃ lists : List (List (String × Value)), results = lists.map Value.object := by
  obtain ⟨lists, related⟩ := Outcome.exists_forall₂ objects
  refine ⟨lists, ?_⟩
  rw [← List.forall₂_eq_eq_eq, List.forall₂_map_right_iff]
  exact related

/-- An intersection has the error of its first branch that fails. -/
theorem error?_checkAllOf : (checkAllOf check path v branches).error? =
    branches.findSome? fun branch => (check path v branch .allOf).error? := by
  unfold checkAllOf
  refine (error?_bind fun results _ => (?_ : _ = none)).trans ?_
  · cases results <;> rfl
  · rw [error?_mapM, Option.or_none]

/-- Every branch accepts the value, and these are the results. -/
def GivesAll (check : Check) (path : Path) (v : Value) (branches : List Schema)
    (results : List Value) : Prop :=
  List.Forall₂ (fun branch result => (check path v branch .allOf).outcome = .ok result) branches
    results

theorem outcome_checkAllOf (given : GivesAll check path v branches (first :: results)) :
    (checkAllOf check path v branches).outcome = .ok (results.foldl merge first) :=
  checkAllOf_eq_ok.mpr ⟨first :: results, given, rfl⟩

/-- What the branches accept an object as is merged. -/
theorem merges_of_givesAll
    (keyed : ∀ branch ∈ branches, ∀ node, d.document.Reaches branch node → node.Keyed)
    (distinct : Entries.Distinct members) (some : results ≠ [])
    (given : GivesAll d.validate path (.object members) branches results) :
    ∃ lists merged, results = lists.map Value.object ∧
      (checkAllOf d.validate path (.object members) branches).outcome = .ok (.object merged) ∧
      Entries.Merges lists merged := by
  have made {result : Value} (isResult : result ∈ results) :=
    Outcome.exists_mem_left_of_forall₂ given isResult
  obtain ⟨lists, rfl⟩ : ∃ lists : List (List (String × Value)), results = lists.map .object := by
    refine exists_map_object fun result isResult => ?_
    obtain ⟨branch, -, accepted⟩ := made isResult
    exact Value.isSome_object?_iff.mp (isSome_object?_of_validate_eq_ok rfl accepted)
  have each : ∀ es ∈ lists, Entries.Distinct es := by
    intro es isList
    obtain ⟨branch, isBranch, accepted⟩ := made (List.mem_map_of_mem isList)
    have keyedObject : (Value.object members).Keyed := by
      rintro _ ⟨⟩
      exact distinct
    exact keyed_of_validate_eq_ok (keyed branch isBranch) rfl keyedObject accepted es rfl
  cases lists with
  | nil => exact absurd rfl some
  | cons es lists =>
    obtain ⟨ofFirst, ofRest⟩ := List.forall_mem_cons.mp each
    refine ⟨es :: lists, lists.foldl Entries.extend es, rfl, ?_,
      Entries.merges_foldl (Entries.merges_singleton ofFirst) ofRest⟩
    rw [outcome_checkAllOf given, foldl_merge_object]

theorem outcome_checkAllOf_of_flat (present : v.isNull = false) (flat : v.object? = none)
    (given : GivesAll d.validate path v branches results) (isLast : results.getLast? = some last) :
    (checkAllOf d.validate path v branches).outcome = .ok last := by
  have each : ∀ result ∈ results, result.object? = none := by
    intro result isResult
    obtain ⟨branch, -, accepted⟩ := Outcome.exists_mem_left_of_forall₂ given isResult
    have same := isSome_object?_of_validate_eq_ok present accepted
    rwa [flat, Option.isSome_none, Option.isSome_eq_false_iff, Option.isNone_iff_eq_none] at same
  cases results with
  | nil => cases isLast
  | cons first results => rw [outcome_checkAllOf given, foldl_merge_of_flat each isLast]

/-- An intersection fails with the error of its first branch that does. Otherwise it gives an object
as the merged results of its branches, and another value as the last result, so the last result
also stands where some result is no object. Merging pairs alone would not yield that: it merges two
objects that follow on another value. -/
theorem intersection_merges (d : Validator) (path : Path) (branches : List Schema)
    (present : v.isNull = false) :
    (checkAllOf d.validate path v branches).error? =
        branches.findSome? (fun branch => (d.validate path v branch .allOf).error?) ∧
      (branches = [] → (checkAllOf d.validate path v branches).outcome = .ok v) ∧
      (∀ results last, GivesAll d.validate path v branches results →
        results.getLast? = some last →
          (∀ members, v = .object members → Entries.Distinct members →
            (∀ branch ∈ branches, ∀ node, d.document.Reaches branch node → node.Keyed) →
              ∃ lists merged, results = lists.map Value.object ∧
                (checkAllOf d.validate path v branches).outcome = .ok (.object merged) ∧
                Entries.Merges lists merged) ∧
          (v.object? = none → (checkAllOf d.validate path v branches).outcome = .ok last) ∧
          ((∃ result ∈ results, result.object? = none) →
            (checkAllOf d.validate path v branches).outcome = .ok last)) ∧
      ∀ first es more, first.object? = none →
        [.object es, .object more].foldl merge first = .object (Entries.extend es more) := by
  refine ⟨error?_checkAllOf, ?_, fun results last given isLast => ⟨?_, ?_, ?_⟩, ?_⟩
  · rintro rfl
    exact checkAllOf_eq_ok.mpr ⟨[], .nil, rfl⟩
  · rintro members rfl distinct keyed
    have some : results ≠ [] := by
      rintro rfl
      cases isLast
    exact merges_of_givesAll keyed distinct some given
  · exact fun flat => outcome_checkAllOf_of_flat present flat given isLast
  · rintro ⟨result, isResult, flatResult⟩
    obtain ⟨branch, -, accepted⟩ := Outcome.exists_mem_left_of_forall₂ given isResult
    have same := isSome_object?_of_validate_eq_ok present accepted
    have flat : v.object? = none := by simpa [flatResult] using same.symm
    exact outcome_checkAllOf_of_flat present flat given isLast
  · intro first es more flat
    rw [List.foldl_cons, merge_of_flat flat]
    rfl

/-- A tag whose kind is a flag for one branch, and a text for another one behind a reference. -/
def flagged : Schema := .object [("kind", .boolean), ("name", .string)] ["kind"]

def noted : Schema := .object [("note", .withDefault .string (.string "-"))] []

def kinded : Schema := .object [("kind", .string)] []

def tagBranches : List Schema := [flagged, noted, .reference "Kinded"]

def tagKeeper : Validator := { document := { schemas := [("Kinded", kinded)] } }

def givenTag : List (String × Value) := [("name", .string "A"), ("kind", .string "true")]

def tagResults : List (List (String × Value)) :=
  [[("kind", .bool true), ("name", .string "A")], [("note", .string "-")],
    [("kind", .string "true")]]

def mergedTag : List (String × Value) :=
  [("kind", .string "true"), ("name", .string "A"), ("note", .string "-")]

theorem keyed_of_reaches_tagBranch {branch node : Schema} (isBranch : branch ∈ tagBranches)
    (reaches : tagKeeper.document.Reaches branch node) : node.Keyed := by
  have reached : node ∈ tagBranches ++ [kinded, .boolean, .string,
      .withDefault .string (.string "-")] := by
    refine Document.mem_of_reaches ?_ ?_ (List.mem_append_left _ isBranch) reaches
    · simp [tagKeeper, Entries.values]
    · simp [Schema.children, tagBranches, flagged, noted, kinded, Schema.object, Schema.reference,
        Schema.boolean, Schema.string, Schema.plain, Schema.withDefault, Shape.nodes,
        Additional.nodes, Entries.values, Entries.ofList, Entries.extend, Entries.insert]
  simp only [tagBranches, List.cons_append, List.nil_append, List.mem_cons, List.not_mem_nil,
    or_false] at reached
  rcases reached with rfl | rfl | rfl | rfl | rfl | rfl | rfl
  · exact Schema.keyed_object _ _
  · exact Schema.keyed_object _ _
  · exact Schema.keyed_of_not_object (by simp [Schema.reference, Schema.plain])
  · exact Schema.keyed_object _ _
  · exact Schema.keyed_of_not_object (by simp [Schema.boolean, Schema.plain])
  · exact Schema.keyed_of_not_object (by simp [Schema.string, Schema.plain])
  · exact Schema.keyed_of_not_object
      (by simp [Schema.withDefault, Schema.string, Schema.plain])

/-- The flag stands first and is overwritten by the text. Of a text that is read as a text and as a
flag, the flag stays. -/
theorem mergedTag_merges :
    (Value.object givenTag).isNull = false ∧ Entries.Distinct givenTag ∧
      (∀ branch ∈ tagBranches, ∀ node, tagKeeper.document.Reaches branch node → node.Keyed) ∧
      GivesAll tagKeeper.validate { root := "q" } (.object givenTag) tagBranches
        (tagResults.map .object) ∧
      (checkAllOf tagKeeper.validate { root := "q" } (.object givenTag) tagBranches).outcome =
        .ok (.object mergedTag) ∧
      Entries.Merges tagResults mergedTag ∧
      (Value.string "true").isNull = false ∧
      GivesAll tagKeeper.validate { root := "q" } (.string "true") [.string, .boolean]
        [.string "true", .bool true] ∧
      (checkAllOf tagKeeper.validate { root := "q" } (.string "true")
        [.string, .boolean]).outcome = .ok (.bool true) := by
  have distinct : Entries.Distinct givenTag := by decide
  have keyed : ∀ branch ∈ tagBranches, ∀ node,
      tagKeeper.document.Reaches branch node → node.Keyed :=
    fun _ isBranch _ => keyed_of_reaches_tagBranch isBranch
  have branch {v w : Value} {schema : Schema} (checked : (tagKeeper.checkWithin 1 2
      { root := "q" } v schema .allOf).outcome = .ok w) :
      (tagKeeper.validate { root := "q" } v schema .allOf).outcome = .ok w :=
    validate_outcome_of_checkWithin checked (by simp)
  have given : GivesAll tagKeeper.validate { root := "q" } (.object givenTag) tagBranches
      (tagResults.map .object) :=
    .cons (branch rfl) (.cons (branch rfl) (.cons (branch rfl) .nil))
  have givenText : GivesAll tagKeeper.validate { root := "q" } (.string "true")
      [.string, .boolean] [.string "true", .bool true] :=
    .cons (branch rfl) (.cons (branch rfl) .nil)
  obtain ⟨-, -, each, -⟩ := intersection_merges tagKeeper { root := "q" } (v := .object givenTag)
    tagBranches rfl
  obtain ⟨-, -, eachText, -⟩ := intersection_merges tagKeeper { root := "q" } (v := .string "true")
    [.string, .boolean] rfl
  obtain ⟨lists, merged, same, accepted, merges⟩ :=
    (each _ _ given rfl).1 givenTag rfl distinct keyed
  obtain rfl := List.map_injective_iff.mpr (fun _ _ => Value.object.inj) same
  have folded : (checkAllOf tagKeeper.validate { root := "q" } (.object givenTag)
      tagBranches).outcome = .ok (.object mergedTag) := outcome_checkAllOf given
  obtain rfl := Value.object.inj (Except.ok.inj (accepted.symm.trans folded))
  exact ⟨rfl, distinct, keyed, given, accepted, merges, rfl, givenText,
    (eachText _ _ givenText rfl).2.1 rfl⟩

end Validator

end ApiContract

import ApiContract.Proofs.Binding.Naming

/-!
How a payload is marked.

Numbers of a payload are not read from texts. A payload is marked by the name of its root, `body` or
anything below it, or by the flag of the validator. Steps below a place never change whether the
text of the place lies under `body`: not even a key that is empty or has dots. So the two marks
amount to the same, and nothing else in the name of a root matters.
-/

namespace ApiContract

/-- The name of the root of bodies, or a name below it. -/
def UnderBody (name : String) : Prop := name = bodyRoot ∨ ∃ rest, name = bodyRoot ++ "." ++ rest

theorem dotted_append_iff {stem first rest : List Char} (plain : '.' ∉ stem)
    (dotted : rest = [] ∨ ∃ more, rest = '.' :: more) :
    (first ++ rest = stem ∨ ∃ more, first ++ rest = stem ++ '.' :: more) ↔
      (first = stem ∨ ∃ more, first = stem ++ '.' :: more) := by
  constructor
  · intro under
    obtain ⟨tail, same, tailDotted⟩ : ∃ tail, first ++ rest = stem ++ tail ∧
        (tail = [] ∨ ∃ more, tail = '.' :: more) := by
      rcases under with same | ⟨more, same⟩
      · exact ⟨[], by simpa using same, .inl rfl⟩
      · exact ⟨_, same, .inr ⟨more, rfl⟩⟩
    rcases List.append_eq_append_iff.mp same with
      ⟨middle, stemIs, restIs⟩ | ⟨middle, firstIs, tailIs⟩
    · -- The first part ends within the stem, where there is no dot to go on with.
      cases middle with
      | nil => exact .inl (by simpa using stemIs.symm)
      | cons c middle =>
        rcases dotted with rfl | ⟨more, rfl⟩
        · simp at restIs
        · obtain ⟨rfl, -⟩ := List.cons.inj restIs
          exact absurd (by simp [stemIs]) plain
    · cases middle with
      | nil => exact .inl (by simpa using firstIs)
      | cons c middle =>
        rcases tailDotted with rfl | ⟨more, rfl⟩
        · simp at tailIs
        · obtain ⟨rfl, -⟩ := List.cons.inj tailIs
          exact .inr ⟨middle, firstIs⟩
  · rintro (rfl | ⟨more, rfl⟩)
    · rcases dotted with rfl | ⟨more, rfl⟩
      · exact .inl (List.append_nil _)
      · exact .inr ⟨more, rfl⟩
    · exact .inr ⟨more ++ rest, by simp⟩

theorem underBody_iff_toList {name : String} :
    UnderBody name ↔ name.toList = bodyRoot.toList ∨
      ∃ more, name.toList = bodyRoot.toList ++ '.' :: more := by
  unfold UnderBody
  refine or_congr String.toList_inj.symm ⟨?_, ?_⟩
  · rintro ⟨rest, rfl⟩
    exact ⟨rest.toList, by simp⟩
  · rintro ⟨more, same⟩
    exact ⟨String.ofList more, String.toList_inj.mp (by simpa using same)⟩

namespace Path

theorem tail_dotted (p : Path) : p.tail.toList = [] ∨ ∃ more, p.tail.toList = '.' :: more := by
  obtain ⟨root, steps⟩ := p
  cases steps with
  | nil => exact .inl rfl
  | cons s steps =>
    have rest := text_eq_append { root := "." ++ s.text, segments := steps }
    exact .inr ⟨_, by simpa [tail, text] using congrArg String.toList rest⟩

/-- A place lies in a body if its text does, whatever steps lead there. -/
theorem isBody_iff {p : Path} : p.isBody = true ↔ UnderBody p.text := by
  have atRoot : p.isBody = true ↔ UnderBody p.root := by
    rw [isBody, underBody_iff_toList, Bool.or_eq_true, decide_eq_true_eq,
      List.isPrefixOf_iff_prefix, String.toList_inj]
    refine or_congr_right (exists_congr fun more => ?_)
    rw [List.append_assoc, List.singleton_append, eq_comm]
  rw [atRoot, underBody_iff_toList, underBody_iff_toList, text_eq_append, String.toList_append]
  exact (dotted_append_iff (by decide) p.tail_dotted).symm

theorem isBody_root_iff {name : String} :
    ({ root := name : Path }).isBody = true ↔ UnderBody name := isBody_iff

end Path

/-- The same outcome but for the root of the place at fault. -/
inductive CheckedAlike (n m : String) : Except CheckError Value → Except CheckError Value → Prop
  | accepted {w} : CheckedAlike n m (.ok w) (.ok w)
  | refused {reason value} (steps : List Segment) : CheckedAlike n m
      (.error (.invalid { path := { root := n, segments := steps }, reason, value }))
      (.error (.invalid { path := { root := m, segments := steps }, reason, value }))
  | broken {cause} : CheckedAlike n m (.error (.schema cause)) (.error (.schema cause))
  | endless : CheckedAlike n m (.error .endless) (.error .endless)

namespace Validator

open Report

variable {d : Validator} {n m : String} {path : Path} {v : Value} {schema : Schema}
  {parent : Parent}

def marked (d : Validator) (isPayload : Bool) : Validator := { d with typedPayload := isPayload }

/-- Under `body` no number is read from a text, be the flag set or not. -/
theorem differs_of_underBody (d : Validator) (isPayload : Bool) (under : UnderBody path.text) :
    Differs { rename := fun _ => path.root } (fun _ => True) (d.marked true)
      (d.marked isPayload) where
  document := rfl
  closed _ _ _ _ := trivial
  texts s target rule other _ _ _ := by
    have atRoot : (other.renamed fun _ => path.root).isBody = path.isBody := rfl
    have isBody := atRoot.trans (Path.isBody_iff.mpr under)
    simp [readsText, marked, isBody]
  fate rule parent keys := (View.fate_of_tellsStripped rfl _).symm

theorem validate_marked (under : UnderBody path.text) (isPayload : Bool) :
    (d.marked isPayload).validate path v schema parent =
      ((d.marked true).validate path v schema parent).through { rename := fun _ => path.root } :=
  validate_through (differs_of_underBody d isPayload under) trivial

theorem readsText_root_eq_iff :
    d.readsText { root := n } = d.readsText { root := m } ↔
      d.typedPayload = true ∨ (UnderBody n ↔ UnderBody m) := by
  rw [← Path.isBody_root_iff, ← Path.isBody_root_iff, ← Bool.eq_iff_iff]
  cases typed : d.typedPayload <;> simp [readsText, typed]

theorem checkedAlike_of_through
    (seen : d.validate { root := m } v schema parent =
      (d.validate { root := n } v schema parent).through (reroot n m)) :
    CheckedAlike n m (d.validate { root := n } v schema parent).outcome
      (d.validate { root := m } v schema parent).outcome := by
  rw [seen, Report.through]
  cases outcome : (d.validate { root := n } v schema parent).outcome with
  | ok w => exact .accepted
  | error cause =>
    cases cause with
    | invalid failure =>
      obtain ⟨steps, place, -⟩ := addresses_validate d _ _ _ _ _ outcome
      obtain ⟨at_, reason, value⟩ := failure
      obtain rfl : at_ = { root := n, segments := steps } := by simpa [Path.below] using place
      have refused := @CheckedAlike.refused n m reason value steps
      simpa [reroot, CheckError.renamed, Failure.renamed, Path.renamed, Except.mapError]
        using refused
    | schema cause => exact .broken
    | endless => exact .endless

/-- The two marks of a payload agree, and nothing else in the name of a root matters. Under `body`
and below it, a check reports the same with the flag for payloads and without. Under two names that
both lie under `body` or both do not, or with the flag under any two names, a check reports the same
but for the name that its places start with. -/
theorem payload_marks_agree (d : Validator) (v : Value) (schema : Schema) (parent : Parent) :
    (∀ path, UnderBody path.text →
        (d.marked true).validate path v schema parent =
          (d.marked false).validate path v schema parent) ∧
      ∀ n m, d.typedPayload = true ∨ (UnderBody n ↔ UnderBody m) →
        d.validate { root := m } v schema parent =
            (d.validate { root := n } v schema parent).through (reroot n m) ∧
          CheckedAlike n m (d.validate { root := n } v schema parent).outcome
            (d.validate { root := m } v schema parent).outcome := by
  refine ⟨fun path under => ?_, fun n m alike => ?_⟩
  · exact (validate_marked under true).trans (validate_marked under false).symm
  · have seen : d.validate { root := m } v schema parent =
        (d.validate { root := n } v schema parent).through (reroot n m) :=
      validate_reroot (.inl (readsText_root_eq_iff.mpr alike))
    exact ⟨seen, checkedAlike_of_through seen⟩

def unionSchema : Schema := .object [("a.", .oneOf [.integer, .string])] []

/-- Under `body`, the text of a number stays a text, whichever way the payload is marked. Under two
other names, a value that fits no branch is refused at one place. -/
theorem union_under_marks :
    UnderBody ({ root := "body" : Path }).text ∧
      (({} : Validator).marked true).validate { root := "body" }
          (.object [("a.", .string "7")]) unionSchema .unknown =
        (({} : Validator).marked false).validate { root := "body" }
          (.object [("a.", .string "7")]) unionSchema .unknown ∧
      ((({} : Validator).marked false).validate { root := "body" }
          (.object [("a.", .string "7")]) unionSchema .unknown).outcome =
        .ok (.object [("a.", .string "7")]) ∧
      (UnderBody "response" ↔ UnderBody "bodyweight") ∧
      CheckedAlike "response" "bodyweight"
        (({} : Validator).validate { root := "response" } (.object [("a.", .bool true)])
          unionSchema .unknown).outcome
        (({} : Validator).validate { root := "bodyweight" } (.object [("a.", .bool true)])
          unionSchema .unknown).outcome ∧
      (({} : Validator).validate { root := "bodyweight" } (.object [("a.", .bool true)])
          unionSchema .unknown).outcome =
        .error (.invalid (.echoing { root := "bodyweight", segments := [.key "a."] } .noBranch
          (.bool true))) := by
  have under : UnderBody ({ root := "body" : Path }).text := .inl rfl
  have alike : UnderBody "response" ↔ UnderBody "bodyweight" := by
    rw [← Path.isBody_root_iff, ← Path.isBody_root_iff]
    decide
  have accepted : (checkWithin (({} : Validator).marked false) 2 2 { root := "body" }
      (.object [("a.", .string "7")]) unionSchema .unknown).outcome =
      .ok (.object [("a.", .string "7")]) := rfl
  have refused : (checkWithin {} 2 2 { root := "bodyweight" } (.object [("a.", .bool true)])
      unionSchema .unknown).outcome =
      .error (.invalid (.echoing { root := "bodyweight", segments := [.key "a."] } .noBranch
        (.bool true))) := rfl
  exact ⟨under, (payload_marks_agree {} _ _ _).1 _ under,
    validate_outcome_of_checkWithin accepted (by simp), alike,
    ((payload_marks_agree {} _ _ _).2 _ _ (.inr alike)).2,
    validate_outcome_of_checkWithin refused (by simp)⟩

end Validator

end ApiContract

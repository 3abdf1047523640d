import ApiContract.Proofs.Validation.Recursion

/-!
What a failure says about the value that was given.

A failure is found at the end of a chain of steps into the value, and it echoes what stands there
before any coercion. Only a missing property has nothing to echo; its object is found one step
before the end.
-/

namespace ApiContract

/-- How a step is written: a key is its own text, and an index its decimal digits. -/
inductive Segment.Written : Segment → String → Prop
  | key {name} : Written (.key name) name
  | index {i} : Written (.index i) (String.ofList (Nat.toDigits 10 i))

theorem Segment.written_text (s : Segment) : s.Written s.text := by
  cases s with
  | key name => exact .key
  | index i => exact .index

/-- What a failure shows of a value at the end of a chain of steps. -/
inductive Failure.Shows (f : Failure) (v : Value) : List Segment → Prop
  | echo {steps found} : v.at? steps = some found → f.value = some found → Shows f v steps
  | missing {steps property members} : v.at? steps = some (.object members) →
      Entries.get? members property = none → f.value = none →
      f.reason.message = property ++ " is required" → Shows f v (steps ++ [.key property])

theorem Failure.Shows.outside {f : Failure} {v w : Value} {s : Segment} {steps : List Segment}
    (step : v.step? s = some w) (shown : f.Shows w steps) : f.Shows v (s :: steps) := by
  have descend (rest : List Segment) : v.at? (s :: rest) = w.at? rest := by
    simp [Value.at?, step]
  cases shown with
  | echo found echoed => exact .echo ((descend _).trans found) echoed
  | missing found absent silent message =>
    rw [← List.cons_append]
    exact .missing ((descend _).trans found) absent silent message

namespace Validator

/-- Every failure of a check lies below the place of the value and, where keys do not repeat, shows
what the value holds there. -/
def Addresses (check : Check) : Prop :=
  ∀ path v schema parent failure, (check path v schema parent).outcome = .error (.invalid failure) →
    ∃ steps, failure.path = path.below steps ∧ (v.Distinct → failure.Shows v steps)

theorem addresses_giveUp : Addresses giveUp := by
  intro path v schema parent failure failed
  simp [giveUp] at failed

theorem addresses_step {d : Validator} {inside across : Check} (insideAddresses : Addresses inside)
    (acrossAddresses : Addresses across) : Addresses (d.step inside across) := by
  intro path v schema parent failure failed
  cases origin_of_step_error failed with
  | refused => exact ⟨[], by simp [Failure.echoing], fun _ => .echo (Value.at?_nil v) rfl⟩
  | @missing members property isObject absent =>
    refine ⟨[] ++ [.key property], rfl, fun _ => ?_⟩
    exact .missing (by simp [isObject]) absent rfl rfl
  | inner _ member _ failed =>
    obtain ⟨steps, place, shown⟩ := insideAddresses _ _ _ _ _ failed
    refine ⟨_ :: steps, by rw [place, Path.child_below], fun distinct => ?_⟩
    exact (shown (distinct.of_member member)).outside
      (Value.step?_eq_some_of_member distinct member)
  | branch _ failed => exact acrossAddresses _ _ _ _ _ failed

theorem addresses_validate (d : Validator) : Addresses d.validate := by
  intro path v schema
  exact checkWithin_induction d addresses_giveUp (fun _ _ => addresses_step)
    (d.nodeCount schema) (v.depth + 1) path v schema

/-- A failure names a place below the root by the steps that lead there, and echoes the value found
there exactly as it was given, or names a required property that the object there lacks. -/
theorem failure_shows_given_value (d : Validator) (name : String) (v : Value) (schema : Schema)
    (parent : Parent) (failure : Failure) (distinct : v.Distinct)
    (failed : (d.validate { root := name } v schema parent).outcome = .error (.invalid failure)) :
    ∃ steps texts, List.Forall₂ Segment.Written steps texts ∧
      failure.path.text = ".".intercalate (name :: texts) ∧ failure.Shows v steps := by
  obtain ⟨steps, place, shown⟩ := addresses_validate d _ _ _ _ _ failed
  have written : List.Forall₂ Segment.Written steps (steps.map Segment.text) :=
    List.forall₂_map_right_iff.mpr (List.forall₂_same.mpr fun s _ => s.written_text)
  refine ⟨steps, steps.map Segment.text, written, ?_, shown distinct⟩
  rw [place, Path.text_eq_intercalate]
  rfl

def itemDocument : Document :=
  { schemas := [("Item", .object [("n", .integer)] ["n"])] }

def itemList : Schema := .object [("a.b", .array (.allOf [.reference "Item"]))] []

def itemValue : Value := .object [("a.b", .array [.object [("n", .string "7")]])]

def itemFailure : Failure :=
  .echoing ⟨"body", [.key "a.b", .index 0, .key "n"]⟩ .notInteger (.string "7")

theorem itemFailure_shows_itemValue :
    (validate { document := itemDocument } { root := "body" } itemValue itemList .unknown).outcome =
        .error (.invalid itemFailure) ∧
      ∃ steps texts, List.Forall₂ Segment.Written steps texts ∧
        itemFailure.path.text = ".".intercalate ("body" :: texts) ∧
        itemFailure.Shows itemValue steps := by
  have failed : (validate { document := itemDocument } { root := "body" } itemValue itemList
      .unknown).outcome = .error (.invalid itemFailure) := by
    have checked : (checkWithin { document := itemDocument } 2 4 { root := "body" } itemValue
        itemList .unknown).outcome = .error (.invalid itemFailure) := rfl
    exact validate_outcome_of_checkWithin checked (by simp)
  exact ⟨failed, failure_shows_given_value _ "body" itemValue itemList .unknown itemFailure
    (by decide) failed⟩

end Validator

end ApiContract

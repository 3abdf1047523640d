import ApiContract.Proofs.Value.Place
import ApiContract.Proofs.Value.Wire
import Mathlib.Data.List.Forall2

/-!
Which values come back from JSON as they were.

Two values are equal where they have the same shape, the same keys in the same order and numbers of
one value. A value comes back equal exactly if nothing in it is an instant, binary content or a
number that is not finite. What was read from JSON has nothing of the kind in it.
-/

namespace ApiContract

namespace Value

/-- The same value with its keys in the same order; numbers compare numerically. -/
inductive Equals : Value → Value → Prop
  | null : Equals null null
  | bool {b} : Equals (bool b) (bool b)
  | number {x y : Binary64} : x.equals y = true → Equals (number x) (number y)
  | string {s} : Equals (string s) (string s)
  | date {t} : Equals (date t) (date t)
  | binary {bytes} : Equals (binary bytes) (binary bytes)
  | array {items others} : List.Forall₂ Equals items others → Equals (array items) (array others)
  | object {members others : List (String × Value)} :
      Entries.keys members = Entries.keys others →
      List.Forall₂ Equals (Entries.values members) (Entries.values others) →
      Equals (object members) (object others)

/-- What JSON has no form for. -/
inductive Foreign : Value → Prop
  | date {t} : Foreign (date t)
  | binary {bytes} : Foreign (binary bytes)
  | number {x} : x.isFinite = false → Foreign (number x)

/-- JSON has a form for all that stands in the value, at any depth. -/
def Expressible (v : Value) : Prop := ∀ steps part, v.Holds steps part → ¬part.Foreign

variable {v w : Value} {x y : Binary64}

theorem foreign_number_iff : (number x).Foreign ↔ x.isFinite = false := by
  constructor
  · intro isForeign
    cases isForeign with
    | number infinite => exact infinite
  · exact .number

theorem expressible_iff_children :
    v.Expressible ↔ ¬v.Foreign ∧ ∀ w ∈ v.children, w.Expressible := by
  constructor
  · intro expressible
    refine ⟨expressible [] v .here, ?_⟩
    intro w isChild steps part holds
    obtain ⟨s, member⟩ := exists_member_iff.mpr isChild
    exact expressible (s :: steps) part (.deeper member holds)
  · rintro ⟨here, inside⟩ steps part holds
    cases holds with
    | here => exact here
    | deeper member holds => exact inside _ (exists_member_iff.mp ⟨_, member⟩) _ _ holds

theorem equals_of_alike (alike : x.Alike y) : y.equals x = true := by
  simp [Binary64.equals, Binary64.isNaN_eq_false alike.finite,
    Binary64.isNaN_eq_false alike.finiteToo, alike.units]

theorem keys_wire (members : List (String × Value)) :
    Entries.keys (members.map fun e => (e.1, e.2.wire)) = Entries.keys members :=
  Entries.keys_mapKeyed (fun _ => wire) members

theorem values_wire (members : List (String × Value)) :
    Entries.values (members.map fun e => (e.1, e.2.wire)) =
      (Entries.values members).map wire := by
  simp [Entries.values, Function.comp_def]

theorem forall₂_equals_wire_iff {vs : List Value} :
    List.Forall₂ Equals (vs.map wire) vs ↔ ∀ w ∈ vs, w.wire.Equals w := by
  rw [List.forall₂_map_left_iff, List.forall₂_same]

theorem equals_array_iff {others : List Value} :
    (array others).Equals v ↔ ∃ items, v = array items ∧ List.Forall₂ Equals others items := by
  constructor
  · intro equals
    cases equals with
    | array each => exact ⟨_, rfl, each⟩
  · rintro ⟨items, rfl, each⟩
    exact .array each

theorem equals_object_iff {others : List (String × Value)} :
    (object others).Equals v ↔ ∃ members, v = object members ∧
      Entries.keys others = Entries.keys members ∧
      List.Forall₂ Equals (Entries.values others) (Entries.values members) := by
  constructor
  · intro equals
    cases equals with
    | object keys each => exact ⟨_, rfl, keys, each⟩
  · rintro ⟨members, rfl, keys, each⟩
    exact .object keys each

/-- A value comes back equal if JSON has a form for it and what is inside comes back equal. -/
theorem equals_wire_iff_children :
    v.wire.Equals v ↔ ¬v.Foreign ∧ ∀ w ∈ v.children, w.wire.Equals w := by
  cases v with
  | number x =>
    cases finite : x.isFinite with
    | true =>
      obtain ⟨y, isNumber, alike⟩ := exists_wire_number finite
      rw [isNumber]
      refine iff_of_true (.number (equals_of_alike alike)) ⟨?_, by simp [children]⟩
      simp [foreign_number_iff, finite]
    | false =>
      rw [wire_number_eq_null finite]
      refine iff_of_false (fun equals => by cases equals) fun fits => ?_
      exact fits.1 (.number finite)
  | date t =>
    rw [wire_date]
    generalize t.text = text
    refine iff_of_false (fun equals => by cases equals) fun fits => ?_
    exact fits.1 .date
  | binary bytes =>
    refine iff_of_false (fun equals => ?_) fun fits => ?_
    · obtain ⟨_, isArray, -⟩ := equals_array_iff.mp equals
      cases isArray
    · exact fits.1 .binary
  | array items =>
    rw [wire_array, equals_array_iff]
    constructor
    · rintro ⟨_, ⟨⟩, each⟩
      exact ⟨by rintro ⟨⟩, forall₂_equals_wire_iff.mp each⟩
    · rintro ⟨-, each⟩
      exact ⟨items, rfl, forall₂_equals_wire_iff.mpr each⟩
  | object members =>
    rw [wire_object, equals_object_iff]
    constructor
    · rintro ⟨_, ⟨⟩, -, each⟩
      rw [values_wire] at each
      exact ⟨by rintro ⟨⟩, forall₂_equals_wire_iff.mp each⟩
    · rintro ⟨-, each⟩
      refine ⟨members, rfl, keys_wire members, ?_⟩
      rw [values_wire]
      exact forall₂_equals_wire_iff.mpr each
  | null => exact iff_of_true .null ⟨by rintro ⟨⟩, by simp [children]⟩
  | bool b => exact iff_of_true .bool ⟨by rintro ⟨⟩, by simp [children]⟩
  | string s => exact iff_of_true .string ⟨by rintro ⟨⟩, by simp [children]⟩

theorem equals_wire_iff (v : Value) : v.wire.Equals v ↔ v.Expressible := by
  rw [equals_wire_iff_children, expressible_iff_children]
  apply and_congr_right
  intro _
  apply forall₂_congr
  intro w isChild
  have smaller := sizeOf_lt_of_mem_children isChild
  exact equals_wire_iff w
termination_by sizeOf v

end Value

/-- The documents that can be written: integers have 64 bits, and reals are finite. -/
inductive Json.Written : Json → Prop
  | null : Written .null
  | bool {b} : Written (.bool b)
  | integer {n : Int} : -0x8000000000000000 ≤ n → n < 0x10000000000000000 →
      Written (.number (.integer n))
  | real {x} : x.isFinite = true → Written (.number (.real x))
  | string {s} : Written (.string s)
  | array {items : List Json} : (∀ j ∈ items, Written j) → Written (.array items)
  | object {members : List (String × Json)} : (∀ e ∈ members, Written e.2) →
      Written (.object members)

namespace Value

theorem itemsOfJson_eq_map (items : List Json) : itemsOfJson items = items.map ofJson := by
  induction items with
  | nil => rfl
  | cons j items ih => exact congrArg (List.cons (ofJson j)) ih

theorem membersOfJson_eq_map (members : List (String × Json)) :
    membersOfJson members = members.map fun e => (e.1, ofJson e.2) := by
  induction members with
  | nil => rfl
  | cons e members ih => exact congrArg (List.cons (e.1, ofJson e.2)) ih

/-- What is read from a document has nothing in it that JSON has no form for. -/
theorem expressible_ofJson {j : Json} (written : j.Written) : (ofJson j).Expressible := by
  induction written with
  | null => exact expressible_iff_children.mpr ⟨by rintro ⟨⟩, by simp [ofJson, children]⟩
  | bool => exact expressible_iff_children.mpr ⟨by rintro ⟨⟩, by simp [ofJson, children]⟩
  | string => exact expressible_iff_children.mpr ⟨by rintro ⟨⟩, by simp [ofJson, children]⟩
  | @integer n least most =>
    have finite : (Binary64.ofInt n).isFinite = true := Binary64.isFinite_ofInt (by omega)
    refine expressible_iff_children.mpr ⟨?_, by simp [ofJson, children]⟩
    simp [ofJson, foreign_number_iff, JsonNumber.toBinary64, finite]
  | real finite =>
    refine expressible_iff_children.mpr ⟨?_, by simp [ofJson, children]⟩
    simp [ofJson, foreign_number_iff, JsonNumber.toBinary64, finite]
  | @array items _ ih =>
    refine expressible_iff_children.mpr ⟨by rintro ⟨⟩, ?_⟩
    rw [ofJson, itemsOfJson_eq_map]
    simpa [children] using ih
  | @object members _ ih =>
    refine expressible_iff_children.mpr ⟨by rintro ⟨⟩, ?_⟩
    rw [ofJson, membersOfJson_eq_map]
    intro w isChild
    obtain ⟨e, isMember, rfl⟩ : ∃ e ∈ members, ofJson e.2 = w := by
      simpa [children, Entries.values] using isChild
    exact ih e isMember

/-- A value comes back from JSON equal, with the order of its keys, exactly if JSON has a form for
all that is in it; and what was read from JSON comes back equal. -/
theorem json_roundTrip :
    (∀ v : Value, (ofJson v.toJson).Equals v ↔ v.Expressible) ∧
      ∀ j : Json, j.Written → (ofJson (ofJson j).toJson).Equals (ofJson j) :=
  ⟨equals_wire_iff, fun j written => (equals_wire_iff (ofJson j)).mpr (expressible_ofJson written)⟩

def parcel : Json :=
  .object [("weight", .number (.integer 0x20000000000001)),
    ("marks", .array [.string "fragile", .null])]

theorem parcel_roundTrip :
    parcel.Written ∧ (ofJson parcel).Expressible ∧
      (ofJson (ofJson parcel).toJson).Equals (ofJson parcel) := by
  have marks : ∀ j ∈ [Json.string "fragile", .null], j.Written := by
    intro j isMark
    rcases List.mem_pair.mp isMark with rfl | rfl
    · exact .string
    · exact .null
  have written : parcel.Written := by
    apply Json.Written.object
    intro e isMember
    rcases List.mem_pair.mp isMember with rfl | rfl
    · exact .integer (by decide) (by decide)
    · exact .array marks
  have equals := json_roundTrip.2 parcel written
  exact ⟨written, (json_roundTrip.1 (ofJson parcel)).mp equals, equals⟩

end Value

end ApiContract

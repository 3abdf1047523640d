import ApiContract.Proofs.Number.Whole
import ApiContract.Value.Json

/-!
What a value is on the wire.

A value is sent as JSON and read back. Containers keep their shape and their keys. Of the rest only
three kinds of value come back as something else: an instant as its text, binary content as an array
of numbers, and a number that is not finite as null.
-/

namespace ApiContract

namespace Value

/-- The value that is read back from the JSON of a value. -/
def wire (v : Value) : Value := ofJson v.toJson

variable {v w : Value} {x : Binary64}

@[simp] theorem wire_null : null.wire = null := rfl

@[simp] theorem wire_bool (b : Bool) : (bool b).wire = bool b := rfl

@[simp] theorem wire_string (s : String) : (string s).wire = string s := rfl

@[simp] theorem wire_date (t : Calendar.Instant) : (date t).wire = string t.text := rfl

@[simp] theorem wire_array (items : List Value) : (array items).wire = array (items.map wire) := by
  have each : itemsOfJson (itemsToJson items) = items.map wire := by
    induction items with
    | nil => rfl
    | cons item items ih => exact congrArg₂ List.cons rfl ih
  exact congrArg array each

@[simp] theorem wire_object (members : List (String × Value)) :
    (object members).wire = object (members.map fun e => (e.1, e.2.wire)) := by
  have each : membersOfJson (membersToJson members) = members.map fun e => (e.1, e.2.wire) := by
    induction members with
    | nil => rfl
    | cons e members ih => exact congrArg₂ List.cons rfl ih
  exact congrArg object each

theorem get?_wire (members : Entries Value) (key : String) :
    Entries.get? (members.map fun e => (e.1, e.2.wire)) key = (members.get? key).map wire :=
  Entries.get?_mapKeyed (fun _ => wire) members key

theorem exists_wire_number (finite : x.isFinite = true) :
    ∃ y, (number x).wire = number y ∧ x.Alike y := by
  unfold wire toJson numberToJson
  split
  next small =>
    simp only [Bool.and_eq_true, decide_eq_true_eq] at small
    exact ⟨_, rfl, Binary64.alike_ofInt_truncate small.1 small.2⟩
  next =>
    refine ⟨x, ?_, finite, finite, rfl⟩
    simp [Json.ofBinary64, finite, ofJson, JsonNumber.toBinary64]

theorem wire_number_eq_null (infinite : x.isFinite = false) : (number x).wire = null := by
  have notWhole : x.isWhole = false := by simp [Binary64.isWhole, infinite]
  simp [wire, toJson, numberToJson, notWhole, Json.ofBinary64, infinite, ofJson]

theorem isNull_wire_iff :
    v.wire.isNull = true ↔ v = null ∨ ∃ x, v = number x ∧ x.isFinite = false := by
  cases v with
  | number x =>
    cases finite : x.isFinite with
    | true =>
      obtain ⟨y, isNumber, -⟩ := exists_wire_number finite
      simp [isNumber, isNull, finite]
    | false => simp [wire_number_eq_null finite, isNull, finite]
  | _ => simp [isNull, wire, toJson, ofJson, binaryToJson]

end Value

end ApiContract

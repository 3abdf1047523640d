import ApiContract.Proofs.Report
import ApiContract.Schema.Loader
import Mathlib.Data.List.Forall2

/-!
Keywords of a schema object.

A keyword that is null counts as absent. What the loader reads for each keyword is what is stated
under it (`Keywords.Reads`).
-/

namespace ApiContract

namespace Json

theorem eq_array_of_array? {j : Json} {items : List Json} (isList : j.array? = some items) :
    j = array items := by
  cases j <;> simp_all [array?]

theorem eq_object_of_object? {j : Json} {members : Entries Json}
    (isObject : j.object? = some members) : j = object members := by
  cases j <;> simp_all [object?]

/-- What is stated under a keyword; null counts as absent. -/
def stated? (ms : Entries Json) (key : String) : Option Json :=
  match ms.get? key with
  | some null => none
  | found => found

variable {ms : Entries Json} {key : String} {j : Json}

theorem stated?_eq_some : stated? ms key = some j ↔ ms.get? key = some j ∧ j ≠ null := by
  unfold stated?
  cases ms.get? key with
  | none => simp
  | some other =>
    cases other with
    | null => simpa using Eq.symm
    | _ =>
      simp only [Option.some.injEq]
      refine (and_iff_left_of_imp ?_).symm
      rintro rfl
      simp

theorem stated?_eq_none : stated? ms key = none ↔ ms.get? key = none ∨ ms.get? key = some null := by
  unfold stated?
  cases ms.get? key with
  | none => simp
  | some other => cases other <;> simp

end Json

namespace Keywords

open Json

section

variable {raw : Json} {given : List (String × Part raw)} {k : Keywords raw}

structure ReadFrom (given : List (String × Part raw)) (k : Keywords raw) : Prop where
  reference : optional given "$ref" text? = some k.reference
  types : optional given "type" types? = some k.types
  format : optional given "format" text? = some k.format
  pattern : optional given "pattern" text? = some k.pattern
  allowed : optional given "enum" list? = some k.allowed
  minLength : optional given "minLength" count? = some k.minLength
  maxLength : optional given "maxLength" count? = some k.maxLength
  minimum : optional given "minimum" number? = some k.minimum
  maximum : optional given "maximum" number? = some k.maximum
  minItems : optional given "minItems" count? = some k.minItems
  maxItems : optional given "maxItems" count? = some k.maxItems
  items : optional given "items" some = some k.items
  properties : optional given "properties" partMembers = some k.properties
  required : defaulting given "required" [] texts? = some k.required
  additional : optional given "additionalProperties" some = some k.additional
  allOf : optional given "allOf" partItems = some k.allOf
  oneOf : optional given "oneOf" partItems = some k.oneOf
  anyOf : optional given "anyOf" partItems = some k.anyOf
  nullable : defaulting given "nullable" false flag? = some k.nullable
  readOnly : defaulting given "readOnly" false flag? = some k.readOnly
  default? : optional given "default" (fun p => some p.json) = some k.default?

theorem ofJson?_eq_some_iff :
    ofJson? raw = some k ↔ ∃ given, given? raw = some given ∧ ReadFrom given k := by
  unfold ofJson?
  constructor
  · intro found
    obtain ⟨given, isGiven, found⟩ := Option.bind_eq_some_iff.mp found
    refine ⟨given, isGiven, ?_⟩
    iterate 21 obtain ⟨_, _, found⟩ := Option.bind_eq_some_iff.mp found
    obtain rfl := Option.some.inj found
    constructor <;> assumption
  · rintro ⟨given, isGiven, ⟨⟩⟩
    refine Option.bind_eq_some_iff.mpr ⟨given, isGiven, ?_⟩
    iterate 21 refine Option.bind_eq_some_iff.mpr ⟨_, by assumption, ?_⟩
    rfl

theorem optional_of_present {α : Type} {name : String} {read : Part raw → Option α} {p : Part raw}
    (found : Entries.get? given name = some p) (present : p.json ≠ .null) :
    optional given name read = (read p).map some := by
  unfold optional
  rw [found]
  cases isJson : p.json <;> simp_all

def blank : Keywords raw where
  reference := none
  types := none
  format := none
  pattern := none
  allowed := none
  minLength := none
  maxLength := none
  minimum := none
  maximum := none
  minItems := none
  maxItems := none
  items := none
  properties := none
  required := []
  additional := none
  allOf := none
  oneOf := none
  anyOf := none
  nullable := false
  readOnly := false
  default? := none

end

variable {ms : Entries Json} {given : List (String × Part (object ms))} {name : String}
  {α β : Type} {value : Option α} {k : Keywords (object ms)}

theorem given_map (found : given? (object ms) = some given) :
    given.map (fun e => (e.1, e.2.json)) = ms := by
  obtain rfl := Option.some.inj found
  rw [List.map_map]
  exact List.attach_map_subtype_val ms

theorem get?_given (found : given? (object ms) = some given) (key : String) :
    ms.get? key = (Entries.get? given key).map Part.json := by
  have read := Entries.get?_mapKeyed (fun _ (p : Part (object ms)) => p.json) given key
  rwa [given_map found] at read

theorem optional_eq_some {read : Part (object ms) → Option α} {f : α → β}
    {readJson : Json → Option β} (found : given? (object ms) = some given)
    (reads : ∀ p, (read p).map f = readJson p.json)
    (isValue : optional given name read = some value) :
    (stated? ms name).map readJson = value.map fun a => some (f a) := by
  unfold optional at isValue
  unfold stated?
  rw [get?_given found]
  cases place : Entries.get? given name with
  | none =>
    obtain rfl : value = none := by simpa [place, eq_comm] using isValue
    rfl
  | some p =>
    have asJson := reads p
    simp only [place, Option.map_some] at isValue ⊢
    split at isValue
    next isNull =>
      obtain rfl : value = none := by simpa [eq_comm] using isValue
      simp [isNull]
    next other =>
      obtain ⟨a, isRead, rfl⟩ := Option.map_eq_some_iff.mp isValue
      rw [isRead] at asJson
      split
      next isNull => exact absurd (Option.some.inj isNull) other
      · simp [← asJson]

theorem optional_part {value : Option (Part (object ms))} (found : given? (object ms) = some given)
    (isValue : optional given name some = some value) : stated? ms name = value.map Part.json := by
  have read : (stated? ms name).map some = value.map fun p => some p.json :=
    optional_eq_some found (fun _ => rfl) isValue
  apply Option.map_injective fun _ _ => Option.some.inj
  rw [read, Option.map_map]
  rfl

theorem defaulting_eq_some {absent a : α} {read : Part (object ms) → Option α}
    {readJson : Json → Option α} (found : given? (object ms) = some given)
    (reads : ∀ p, read p = readJson p.json)
    (isValue : defaulting given name absent read = some a) :
    a = ((ms.get? name).bind readJson).getD absent := by
  unfold defaulting at isValue
  rw [get?_given found]
  cases place : Entries.get? given name with
  | none => simpa [place, eq_comm] using isValue
  | some p =>
    have isRead : read p = some a := by simpa [place] using isValue
    simp [← reads p, isRead]

theorem partItems_map {raw : Json} (p : Part raw) :
    (partItems p).map (List.map Part.json) = p.json.array? := by
  obtain ⟨j, inside⟩ := p
  cases j <;> simp [partItems, array?, Function.comp_def]

theorem partMembers_map {raw : Json} (p : Part raw) :
    (partMembers p).map (List.map fun e => (e.1, e.2.json)) = p.json.object? := by
  obtain ⟨j, inside⟩ := p
  cases j with
  | object members =>
    simp only [partMembers, object?, Option.map_some, List.map_map]
    exact congrArg some (List.attach_map_subtype_val members)
  | _ => rfl

/-- The keywords that decide about nested places, lists of values and flags, by what is stated. -/
structure Reads (ms : Entries Json) (k : Keywords (object ms)) : Prop where
  reference : (stated? ms "$ref").map string? = k.reference.map some
  typeName : ∀ name, stated? ms "type" = some (string name) → k.types = some (.single name)
  allowed : (stated? ms "enum").map array? = k.allowed.map some
  items : stated? ms "items" = k.items.map Part.json
  properties : (stated? ms "properties").map object? =
    k.properties.map fun ps => some (ps.map fun e => (e.1, e.2.json))
  additional : stated? ms "additionalProperties" = k.additional.map Part.json
  allOf : (stated? ms "allOf").map array? = k.allOf.map fun ps => some (ps.map Part.json)
  oneOf : (stated? ms "oneOf").map array? = k.oneOf.map fun ps => some (ps.map Part.json)
  anyOf : (stated? ms "anyOf").map array? = k.anyOf.map fun ps => some (ps.map Part.json)
  nullable : k.nullable = ((ms.get? "nullable").bind bool?).getD false
  readOnly : k.readOnly = ((ms.get? "readOnly").bind bool?).getD false
  default? : k.default? = stated? ms "default"

theorem Reads.of_readFrom (isGiven : given? (object ms) = some given) (isRead : ReadFrom given k) :
    k.Reads ms where
  reference := optional_eq_some (f := id) isGiven (fun p => by simp [text?]) isRead.reference
  typeName name isStated := by
    have given := (stated?_eq_some.mp isStated).1
    rw [get?_given isGiven] at given
    obtain ⟨p, found, isName⟩ := Option.map_eq_some_iff.mp given
    have read := isRead.types
    rw [optional_of_present found (by simp [isName])] at read
    simpa [types?, isName, eq_comm] using read
  allowed := optional_eq_some (f := id) isGiven (fun p => by simp [list?]) isRead.allowed
  items := optional_part isGiven isRead.items
  properties := optional_eq_some isGiven partMembers_map isRead.properties
  additional := optional_part isGiven isRead.additional
  allOf := optional_eq_some isGiven partItems_map isRead.allOf
  oneOf := optional_eq_some isGiven partItems_map isRead.oneOf
  anyOf := optional_eq_some isGiven partItems_map isRead.anyOf
  nullable := defaulting_eq_some isGiven (fun _ => rfl) isRead.nullable
  readOnly := defaulting_eq_some isGiven (fun _ => rfl) isRead.readOnly
  default? := by
    have read : (stated? ms "default").map some = k.default?.map some :=
      optional_eq_some (f := id) isGiven (fun _ => rfl) isRead.default?
    exact (Option.map_injective (fun _ _ => Option.some.inj) read).symm

end Keywords

end ApiContract

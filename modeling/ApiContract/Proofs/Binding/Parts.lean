import ApiContract.Proofs.Binding.Naming

/-!
Requests as they are put together.

A transport hands over a request part by part. The texts that a request carries under a name are
those of the parts that were given under that name: all of them in a query, and the last one in the
headers and in the path. Two header names are one if they differ by case alone.
-/

namespace ApiContract

inductive Request.Part where
  | query (name value : String)
  | header (name value : String)
  | path (name value : String)
  | body (v : Value)
  | contentType (text : String)

namespace Request

namespace Part

def text? (location : Location) (name : String) : Part → Option String
  | query key text => if location = .query ∧ key = name then some text else none
  | header key text =>
    if location = .header ∧ lowerCase key = lowerCase name then some text else none
  | path key text => if location = .path ∧ key = name then some text else none
  | body _ => none
  | contentType _ => none

def body? : Part → Option Value
  | body v => some v
  | _ => none

end Part

def add (r : Request) : Part → Request
  | .query name value => r.addQuery name value
  | .header name value => r.setHeader name value
  | .path name value => r.setPathValue name value
  | .body v => r.setBody v
  | .contentType text => r.setContentType text

/-- The request that is put together from some parts, in their order. -/
def ofParts (parts : List Part) : Request := parts.foldl add {}

/-- The texts that are left of those given under one name. -/
def kept (location : Location) (texts : List String) : List String :=
  if location = .query then texts else texts.getLast?.toList

theorem kept_kept_append (location : Location) (front back : List String) :
    kept location (kept location front ++ back) = kept location (front ++ back) := by
  unfold kept
  split
  · rfl
  · cases last : front.getLast? <;> simp [List.getLast?_append, List.getLast?_cons, last]

theorem kept_carried (r : Request) (location : Location) (name : String) :
    kept location (r.carried location name) = r.carried location name := by
  unfold kept carried
  cases location with
  | query => rfl
  | header => cases r.headers.get? (lowerCase name) <;> rfl
  | path => cases r.pathValues.get? name <;> rfl
  | request | body => rfl

theorem carried_add_of_silent {part : Part} {location : Location} {name : String}
    (silent : part.text? location name = none) (r : Request) :
    (r.add part).carried location name = r.carried location name := by
  cases part with
  | query key text =>
    cases location with
    | query =>
      have other : key ≠ name := by simpa [Part.text?] using silent
      simp only [add, addQuery, carried, Entries.get?_insert_of_ne _ _ other]
    | header | path | request | body => rfl
  | header key text =>
    cases location with
    | header =>
      have other : lowerCase key ≠ lowerCase name := by simpa [Part.text?] using silent
      simp only [add, setHeader, carried, Entries.get?_insert_of_ne _ _ other]
    | query | path | request | body => rfl
  | path key text =>
    cases location with
    | path =>
      have other : key ≠ name := by simpa [Part.text?] using silent
      simp only [add, setPathValue, carried, Entries.get?_insert_of_ne _ _ other]
    | query | header | request | body => rfl
  | body v => cases location <;> rfl
  | contentType text => cases location <;> rfl

theorem carried_add_of_given {part : Part} {location : Location} {name text : String}
    (given : part.text? location name = some text) (r : Request) :
    (r.add part).carried location name = kept location (r.carried location name ++ [text]) := by
  cases part with
  | query key value =>
    obtain ⟨⟨rfl, rfl⟩, rfl⟩ : (location = .query ∧ key = name) ∧ value = text := by
      simpa [Part.text?] using given
    simp [add, addQuery, carried, kept, Entries.get?_insert_self]
  | header key value =>
    obtain ⟨⟨rfl, same⟩, rfl⟩ :
        (location = .header ∧ lowerCase key = lowerCase name) ∧ value = text := by
      simpa [Part.text?] using given
    simp [add, setHeader, carried, kept, same, Entries.get?_insert_self]
  | path key value =>
    obtain ⟨⟨rfl, rfl⟩, rfl⟩ : (location = .path ∧ key = name) ∧ value = text := by
      simpa [Part.text?] using given
    simp [add, setPathValue, carried, kept, Entries.get?_insert_self]
  | body v => cases given
  | contentType value => cases given

theorem carried_add (r : Request) (part : Part) (location : Location) (name : String) :
    (r.add part).carried location name =
      kept location (r.carried location name ++ (part.text? location name).toList) := by
  cases given : part.text? location name with
  | none => rw [carried_add_of_silent given, Option.toList_none, List.append_nil, kept_carried]
  | some text => exact carried_add_of_given given r

theorem carried_foldl_add (r : Request) (parts : List Part) (location : Location) (name : String) :
    (parts.foldl add r).carried location name =
      kept location (r.carried location name ++ parts.filterMap (Part.text? location name)) := by
  induction parts generalizing r with
  | nil => rw [List.foldl_nil, List.filterMap_nil, List.append_nil, kept_carried]
  | cons part rest ih =>
    rw [List.foldl_cons, ih, carried_add, kept_kept_append, List.append_assoc, List.filterMap_cons]
    cases part.text? location name <;> rfl

/-- A request carries the texts that its parts give, all of those in the query and else the last. -/
theorem carried_ofParts (parts : List Part) (location : Location) (name : String) :
    (ofParts parts).carried location name =
      kept location (parts.filterMap (Part.text? location name)) := by
  have nothing : ({} : Request).carried location name = [] := by cases location <;> rfl
  rw [ofParts, carried_foldl_add, nothing, List.nil_append]

/-- What every part that tells it replaces is left as the last of them tells it. -/
theorem foldl_add_of_replaced {α : Type} {held : Request → Option α} {told : Part → Option α}
    (step : ∀ r part, held (r.add part) = (told part).or (held r)) (r : Request)
    (parts : List Part) :
    held (parts.foldl add r) = (parts.filterMap told).getLast?.or (held r) := by
  induction parts generalizing r with
  | nil => rfl
  | cons part rest ih =>
    rw [List.foldl_cons, ih, step, List.filterMap_cons]
    cases told part <;> simp [List.getLast?_cons]

theorem body?_add (r : Request) (part : Part) : (r.add part).body? = part.body?.or r.body? := by
  cases part <;> rfl

theorem body?_ofParts (parts : List Part) :
    (ofParts parts).body? = (parts.filterMap Part.body?).getLast? := by
  rw [ofParts, foldl_add_of_replaced body?_add, Option.or_none]

theorem kept_eq_nil_iff {location : Location} {texts : List String} :
    kept location texts = [] ↔ texts = [] := by
  unfold kept
  split
  · rfl
  · rw [Option.toList_eq_nil_iff, List.getLast?_eq_none_iff]

theorem rawOf?_eq_none_iff {texts : List String} : rawOf? texts = none ↔ texts = [] := by
  rcases texts with _ | ⟨first, _ | ⟨second, rest⟩⟩ <;> simp [rawOf?]

theorem raw?_ofParts_eq_none_iff {parts : List Part} {location : Location} {name : String} :
    (ofParts parts).raw? location name = none ↔
      ∀ part ∈ parts, part.text? location name = none := by
  rw [raw?_eq, carried_ofParts, rawOf?_eq_none_iff, kept_eq_nil_iff, List.filterMap_eq_nil_iff]

theorem body?_ofParts_eq_none_iff {parts : List Part} :
    (ofParts parts).body? = none ↔ ∀ part ∈ parts, part.body? = none := by
  rw [body?_ofParts, List.getLast?_eq_none_iff, List.filterMap_eq_nil_iff]

end Request

end ApiContract

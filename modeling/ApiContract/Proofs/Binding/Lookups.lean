import ApiContract.Proofs.Binding.Parts
import ApiContract.Proofs.Text.Letters

/-!
What can be looked up in a request that was put together.

A request that starts from a query string and is given parts in any order answers like the list of
its parts: all texts under a name in the query, in order, and elsewhere the last one that was given.
The content type is the one that was set last, or else the last header of that name. A part that
does not give what is looked up leaves the answer alone.
-/

namespace ApiContract.Request

/-- Whether a part gives a text under a name: the very name, or for a header the name in letters of
either case. -/
inductive Part.Gives : Part → Location → String → String → Prop
  | query {name text} : Gives (.query name text) .query name text
  | header {key name text} : Text.SameLetters key.toList name.toList →
      Gives (.header key text) .header name text
  | path {name text} : Gives (.path name text) .path name text

variable {location : Location} {name text : String} {part : Part} {r : Request}

theorem Part.text?_eq_some_iff : part.text? location name = some text ↔
    part.Gives location name text := by
  constructor
  · intro given
    cases part with
    | query key value =>
      obtain ⟨⟨rfl, rfl⟩, rfl⟩ : (location = .query ∧ key = name) ∧ value = text := by
        simpa [text?] using given
      exact .query
    | header key value =>
      obtain ⟨⟨rfl, same⟩, rfl⟩ :
          (location = .header ∧ lowerCase key = lowerCase name) ∧ value = text := by
        simpa [text?] using given
      exact .header (lowerCase_eq_iff.mp same)
    | path key value =>
      obtain ⟨⟨rfl, rfl⟩, rfl⟩ : (location = .path ∧ key = name) ∧ value = text := by
        simpa [text?] using given
      exact .path
    | body v => cases given
    | contentType value => cases given
  · rintro (_ | same | _)
    · simp [text?]
    · simp [text?, lowerCase_eq_iff.mpr same]
    · simp [text?]

def Part.contentType? : Part → Option String
  | contentType text => some text
  | _ => none

theorem rawOf?_toList (text? : Option String) : rawOf? text?.toList = text?.map .string := by
  cases text? <;> rfl

theorem raw?_ofParts (parts : List Part) (location : Location) (name : String) :
    (ofParts parts).raw? location name =
      rawOf? (kept location (parts.filterMap (Part.text? location name))) := by
  rw [raw?_eq, carried_ofParts]

theorem query?_ofParts (parts : List Part) (name : String) :
    (ofParts parts).query? name = rawOf? (parts.filterMap (Part.text? .query name)) :=
  raw?_ofParts parts .query name

theorem header?_ofParts (parts : List Part) (name : String) :
    (ofParts parts).header? name =
      (parts.filterMap (Part.text? .header name)).getLast?.map .string :=
  (raw?_ofParts parts .header name).trans (rawOf?_toList _)

theorem pathValue?_ofParts (parts : List Part) (name : String) :
    (ofParts parts).pathValue? name =
      (parts.filterMap (Part.text? .path name)).getLast?.map .string :=
  (raw?_ofParts parts .path name).trans (rawOf?_toList _)

theorem declaredType?_add (r : Request) (part : Part) :
    (r.add part).declaredType? = part.contentType?.or r.declaredType? := by
  cases part <;> rfl

theorem contentType?_eq (r : Request) :
    r.contentType? = r.declaredType?.or (r.carried .header "Content-Type").head? := by
  have sameName : lowerCase "Content-Type" = "content-type" := by decide
  simp only [contentType?, carried, sameName]
  cases r.declaredType? <;> cases r.headers.get? "content-type" <;> rfl

theorem contentType?_ofParts (parts : List Part) :
    (ofParts parts).contentType? = (parts.filterMap Part.contentType?).getLast?.or
      (parts.filterMap (Part.text? .header "Content-Type")).getLast? := by
  have declared : (ofParts parts).declaredType? = (parts.filterMap Part.contentType?).getLast? := by
    rw [ofParts, foldl_add_of_replaced declaredType?_add, Option.or_none]
  rw [contentType?_eq, declared, carried_ofParts, kept, if_neg (by simp), Option.head?_toList]

/-- The request that starts from a query string and is given some parts, one after the other. -/
def receive (query : String) (parts : List Part) : Request := parts.foldl add (ofQueryString query)

/-- All parts of such a request: the pairs of the query string come first. -/
def received (query : String) (parts : List Part) : List Part :=
  (Text.formPairs query).map (fun e => .query e.1 e.2) ++ parts

theorem receive_eq (query : String) (parts : List Part) :
    receive query parts = ofParts (received query parts) := by
  rw [receive, received, ofQueryString, ofParts, List.foldl_append, List.foldl_map]
  rfl

theorem raw?_add_of_silent (silent : part.text? location name = none) (r : Request) :
    (r.add part).raw? location name = r.raw? location name := by
  rw [raw?_eq, raw?_eq, carried_add_of_silent silent]

theorem contentType?_add_of_silent (unset : part.contentType? = none)
    (silent : part.text? .header "Content-Type" = none) (r : Request) :
    (r.add part).contentType? = r.contentType? := by
  rw [contentType?_eq, contentType?_eq, declaredType?_add, unset, Option.none_or,
    carried_add_of_silent silent]

/-- A request that starts from a query string and is given parts, in any order and number, answers
as they say: with the text or with all texts that they give the query under a name, with the last
text that they give under the name of a header, in either case, or of a path parameter, with the
last body, and with the last content type, or else the last header of that name. A part that does
not give what is looked up leaves the answer of every request alone. -/
theorem lookups_faithful (query : String) (parts : List Part) (name : String) :
    (∀ part location text, Part.text? location name part = some text ↔
      part.Gives location name text) ∧
    (receive query parts).query? name =
      rawOf? ((received query parts).filterMap (Part.text? .query name)) ∧
    (receive query parts).header? name =
      ((received query parts).filterMap (Part.text? .header name)).getLast?.map .string ∧
    (receive query parts).pathValue? name =
      ((received query parts).filterMap (Part.text? .path name)).getLast?.map .string ∧
    (receive query parts).body? = ((received query parts).filterMap Part.body?).getLast? ∧
    (receive query parts).contentType? =
      ((received query parts).filterMap Part.contentType?).getLast?.or
        ((received query parts).filterMap (Part.text? .header "Content-Type")).getLast? ∧
    ∀ (r : Request) (part : Part),
      (part.text? .query name = none → (r.add part).query? name = r.query? name) ∧
      (part.text? .header name = none → (r.add part).header? name = r.header? name) ∧
      (part.text? .path name = none → (r.add part).pathValue? name = r.pathValue? name) ∧
      (part.body? = none → (r.add part).body? = r.body?) ∧
      (part.contentType? = none → part.text? .header "Content-Type" = none →
        (r.add part).contentType? = r.contentType?) := by
  rw [receive_eq]
  refine ⟨fun _ _ _ => Part.text?_eq_some_iff, query?_ofParts _ name, header?_ofParts _ name,
    pathValue?_ofParts _ name, body?_ofParts _, contentType?_ofParts _, fun r part => ?_⟩
  refine ⟨fun silent => raw?_add_of_silent silent r, fun silent => raw?_add_of_silent silent r,
    fun silent => raw?_add_of_silent silent r, fun silent => ?_,
    fun unset silent => contentType?_add_of_silent unset silent r⟩
  rw [body?_add, silent, Option.none_or]

def orderParts : List Part :=
  [.header "Content-Type" "text/plain", .query "tag" "new", .path "id" "7",
    .header "content-TYPE" "application/json", .body .null, .path "id" "8"]

theorem received_order : received "tag=a&limit=10&tag=b%20c" orderParts =
    [.query "tag" "a", .query "limit" "10", .query "tag" "b c"] ++ orderParts := by
  have pairs : Text.formPairs "tag=a&limit=10&tag=b%20c" =
      [("tag", "a"), ("limit", "10"), ("tag", "b c")] := by decide +kernel
  rw [received, pairs]
  rfl

theorem order_looked_up :
    (receive "tag=a&limit=10&tag=b%20c" orderParts).query? "tag" =
      some (.array [.string "a", .string "b c", .string "new"]) ∧
    (receive "tag=a&limit=10&tag=b%20c" orderParts).contentType? = some "application/json" ∧
    Part.text? .query "tag" (.path "tag" "x") = none ∧
    Part.text? .header "Content-Type" (.path "tag" "x") = none ∧
    ((receive "tag=a&limit=10&tag=b%20c" orderParts).add (.path "tag" "x")).query? "tag" =
      some (.array [.string "a", .string "b c", .string "new"]) ∧
    ((receive "tag=a&limit=10&tag=b%20c" orderParts).add (.path "tag" "x")).header? "tag" = none ∧
    ((receive "tag=a&limit=10&tag=b%20c" orderParts).add (.query "id" "9")).pathValue? "id" =
      some (.string "8") ∧
    ((receive "tag=a&limit=10&tag=b%20c" orderParts).add (.path "tag" "x")).body? = some .null ∧
    ((receive "tag=a&limit=10&tag=b%20c" orderParts).add (.path "tag" "x")).contentType? =
      some "application/json" := by
  obtain ⟨-, tags, header, -, body, contentType, alone⟩ :=
    lookups_faithful "tag=a&limit=10&tag=b%20c" orderParts "tag"
  obtain ⟨-, -, -, path, -, -, aloneAtId⟩ :=
    lookups_faithful "tag=a&limit=10&tag=b%20c" orderParts "id"
  rw [received_order] at tags header body contentType path
  have noQuery : Part.text? .query "tag" (.path "tag" "x") = none := by decide
  have noType : Part.text? .header "Content-Type" (.path "tag" "x") = none := by decide
  obtain ⟨sameQuery, sameHeader, -, sameBody, sameType⟩ := alone
    (receive "tag=a&limit=10&tag=b%20c" orderParts) (.path "tag" "x")
  obtain ⟨-, -, samePath, -, -⟩ := aloneAtId
    (receive "tag=a&limit=10&tag=b%20c" orderParts) (.query "id" "9")
  exact ⟨tags, contentType, noQuery, noType, (sameQuery noQuery).trans tags,
    (sameHeader rfl).trans header, (samePath rfl).trans path, (sameBody rfl).trans body,
    (sameType rfl noType).trans contentType⟩

end ApiContract.Request

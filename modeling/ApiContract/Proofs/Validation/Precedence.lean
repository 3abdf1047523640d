import ApiContract.Proofs.Validation.Nullability
import ApiContract.Proofs.Validation.Retention
import ApiContract.Proofs.Validation.Selection

/-!
Keywords beside an intersection.

A node has one shape, and of the keywords that would give it one the first in a fixed order is read:
a reference, an intersection, a union, a type. What stands beside an intersection says nothing about
values. An object is accepted for the branches alone, and its properties are kept for the branches
that declare them; keywords beside the intersection count as far as a branch states them again.
-/

namespace ApiContract

namespace Schema

open Json

variable {ms : Entries Json} {parts : List Json} {node : Schema}

/-- A schema object states an intersection. It has no reference, which would be read first, and no
union of which one branch is left, which would take the place of the intersection. -/
structure Intersects (ms : Entries Json) (parts : List Json) : Prop where
  wellKeyed : WellKeyed ms
  states : ms.get? "allOf" = some (.array parts)
  unreferenced : stated? ms "$ref" = none
  kept : ∀ only, ¬Collapses ms only

def withoutAllOf (ms : Entries Json) : Entries Json := ms.filter fun e => e.1 ≠ "allOf"

theorem Intersects.exists_branches (intersects : Intersects ms parts)
    (loaded : ofJson (.object ms) = .ok node) :
    ∃ branches, parts.mapM ofJson = .ok branches ∧ node.shape = .allOf branches := by
  obtain ⟨wellKeyed, states, unreferenced, kept⟩ := intersects
  rw [ofJson, normalSchema_object] at loaded
  have noRef : stated? (normalMembers ms) "$ref" = none := by
    rw [stated?_normalMembers wellKeyed.distinct (by decide), unreferenced]
    rfl
  have noRemainder : (remainder? (ms.get? "anyOf")).or (remainder? (ms.get? "oneOf")) = none :=
    Option.eq_none_iff_forall_ne_some.mpr kept
  have isStated : stated? ms "allOf" = some (.array parts) :=
    stated?_eq_some.mpr ⟨states, by simp⟩
  have isNormal : stated? (normalMembers ms) "allOf" = some (.array (parts.map normalSchema)) := by
    rw [stated?_normalMembers_allOf wellKeyed noRemainder, isStated, Option.map_some,
      normalMember_branches (by decide)]
  obtain ⟨_, branches, same, shape, loads⟩ :=
    (reads_of_ofNormal loaded).shaped.of_allOf noRef isNormal
  obtain rfl := Json.array.inj same
  exact ⟨branches, Outcome.mapM_eq_ok.mpr (loadsBranches_map.mp loads), shape⟩

end Schema

namespace Validator

open Report

variable {d : Validator} {path : Path} {v w : Value} {parent : Parent} {schema other : Schema}
  {branches : List Schema} {rule : ObjectRule Schema} {members : List (String × Value)}

/-- For a value other than null the shape at the end of the references is all of a schema. -/
theorem outcome_validate_of_shapes {shape : Shape Schema} (present : v.isNull = false)
    (shapes : d.document.Shapes schema shape) (otherShapes : d.document.Shapes other shape) :
    (d.validate path v schema parent).outcome = (d.validate path v other parent).outcome := by
  obtain ⟨target, resolved, isShape⟩ := shapes
  obtain ⟨otherTarget, otherResolved, rfl⟩ := otherShapes
  rw [validate_outcome, validate_outcome]
  simp [step, resolved, otherResolved, isShape, present, Except.mapError]

theorem shapes_self {shape : Shape Schema} (concrete : ¬schema.IsReference)
    (isShape : schema.shape = shape) : d.document.Shapes schema shape :=
  ⟨schema, Document.resolve_of_not_isReference concrete, isShape⟩

theorem exists_key_of_offers {p : Declared} (shapes : d.document.Shapes schema (.object rule))
    (offers : Offers d.document rule.properties p) (given : p.name ∈ Entries.keys members)
    (accepted : (d.validate path (.object members) schema parent).outcome = .ok w) :
    ∃ es, w = .object es ∧ p.name ∈ Entries.keys es := by
  obtain ⟨target, resolved, shape⟩ := shapes
  rw [outcome_validate_object resolved shape] at accepted
  obtain ⟨_, ps, results, extra, isObject, found, related, -, rfl⟩ := checkObject_eq_ok.mp accepted
  obtain rfl := Value.object.inj isObject
  obtain ⟨v, isMember⟩ := Option.isSome_iff_exists.mp (Entries.mem_keys_iff.mp given)
  obtain ⟨-, -, w, isResult, -⟩ :=
    exists_result_of_declared related isMember ⟨p, (mem_declared_iff found).mpr offers, rfl⟩
  exact ⟨_, rfl, Entries.mem_keys_iff.mpr (Option.isSome_iff_exists.mpr ⟨w, isResult⟩)⟩

theorem exists_keys_of_checkAllOf
    (accepted : (checkAllOf d.validate path (.object members) branches).outcome = .ok w)
    (isBranch : schema ∈ branches) :
    ∃ es merged, (d.validate path (.object members) schema .allOf).outcome = .ok (.object es) ∧
      w = .object merged ∧ ∀ key ∈ Entries.keys es, key ∈ Entries.keys merged := by
  obtain ⟨results, related, rfl⟩ := checkAllOf_eq_ok.mp accepted
  have objects : ∀ result ∈ results, ∃ es, result = .object es := by
    intro result isResult
    obtain ⟨branch, -, made⟩ := Outcome.exists_mem_left_of_forall₂ related isResult
    exact Value.isSome_object?_iff.mp (isSome_object?_of_validate_eq_ok rfl made)
  obtain ⟨result, isResult, made⟩ := Outcome.exists_mem_right_of_forall₂ related isBranch
  obtain ⟨es, rfl⟩ := objects result isResult
  cases results with
  | nil => cases isResult
  | cons first rest =>
    obtain ⟨merged, folded, -, keys⟩ := foldl_merge_objects objects
    exact ⟨es, merged, made, folded, keys es isResult⟩

/-- The branches of an intersection, some of which are object schemas, ask of properties all that an
object rule asks. -/
structure Covers (d : Validator) (branches : List Schema) (rule : ObjectRule Schema) : Prop where
  resolves : ∀ e ∈ rule.properties, d.document.Resolves e.2
  property : ∀ p, Offers d.document rule.properties p →
    ∃ branch ∈ branches, ∃ other, d.document.Shapes branch (.object other) ∧
      Offers d.document other.properties p ∧ (p.name ∈ rule.required → p.name ∈ other.required)
  extra : ∀ node, rule.additional ≠ .schema node

theorem isAccepted_checkProperty_of_offers {p : Declared}
    (shapes : d.document.Shapes schema (.object rule))
    (offers : Offers d.document rule.properties p)
    (accepted : (d.validate path (.object members) schema parent).IsAccepted) :
    (checkProperty d.validate path rule.required members p).IsAccepted := by
  obtain ⟨target, resolved, shape⟩ := shapes
  obtain ⟨w, accepted⟩ := accepted
  rw [outcome_validate_object resolved shape] at accepted
  obtain ⟨_, ps, results, extra, isObject, found, related, -, -⟩ := checkObject_eq_ok.mp accepted
  obtain rfl := Value.object.inj isObject
  obtain ⟨result, -, passed⟩ :=
    Outcome.exists_mem_right_of_forall₂ related ((mem_declared_iff found).mpr offers)
  exact ⟨result, passed⟩

/-- Where undeclared keys are not rejected, an object that an intersection accepts is accepted by
every object schema that its branches cover. -/
theorem isAccepted_of_covers (lenient : d.switches.rejectUndeclared = false)
    (covers : d.Covers branches rule) (shapes : d.document.Shapes schema (.object rule))
    (accepted : (checkAllOf d.validate path (.object members) branches).outcome = .ok w) :
    (d.validate path (.object members) schema parent).IsAccepted := by
  obtain ⟨target, resolved, shape⟩ := shapes
  obtain ⟨ps, found⟩ := exists_declared covers.resolves
  unfold IsAccepted
  rw [outcome_validate_object resolved shape]
  refine (isAccepted_checkObject_iff found).mpr
    ⟨isAccepted_mapM_iff.mpr fun p isDeclared => ?_, isAccepted_checkUndeclared_iff.mpr ⟨?_, ?_⟩⟩
  · obtain ⟨branch, isBranch, other, branchShapes, offers, required⟩ :=
      covers.property p ((mem_declared_iff found).mp isDeclared)
    obtain ⟨es, -, made, -, -⟩ := exists_keys_of_checkAllOf accepted isBranch
    obtain ⟨member, missing⟩ := isAccepted_checkProperty_iff.mp
      (isAccepted_checkProperty_of_offers branchShapes offers ⟨_, made⟩)
    exact isAccepted_checkProperty_iff.mpr
      ⟨member, fun absent isRequired => missing absent (required isRequired)⟩
  · rw [Ne, Additional.fate_eq_reject_iff]
    rintro ⟨-, rejects, -⟩
    exact Bool.false_ne_true (lenient.symm.trans rejects)
  · intro node fate
    exact absurd (Additional.eq_schema_of_fate_eq_check fate) (covers.extra node)

/-- An intersection outranks the keywords beside it. The schema object makes of an object what the
intersection alone makes of it, for any switches. If it accepts the object, then it keeps every
member that a branch offers as a property, and where undeclared keys are not rejected the object is
accepted by the other keywords too if the branches cover them. -/
theorem intersection_outranks (d : Validator) {ms : Entries Json} {parts : List Json}
    {node : Schema} (intersects : Schema.Intersects ms parts)
    (loaded : Schema.ofJson (.object ms) = .ok node) :
    ∃ branches alone, parts.mapM Schema.ofJson = .ok branches ∧
      Schema.ofJson (.object [("allOf", .array parts)]) = .ok alone ∧
      ∀ path members parent,
        (d.validate path (.object members) node parent).outcome =
          (d.validate path (.object members) alone parent).outcome ∧
        ∀ w, (d.validate path (.object members) node parent).outcome = .ok w →
          (∀ branch ∈ branches, ∀ rule p, d.document.Shapes branch (.object rule) →
            Offers d.document rule.properties p → p.name ∈ Entries.keys members →
              ∃ es, w = .object es ∧ p.name ∈ Entries.keys es) ∧
          (d.switches.rejectUndeclared = false → ∀ own rule,
            Schema.ofJson (.object (Schema.withoutAllOf ms)) = .ok own →
            d.document.Shapes own (.object rule) → d.Covers branches rule →
              ∃ u, (d.validate path (.object members) own parent).outcome = .ok u) := by
  obtain ⟨branches, loads, shape⟩ := intersects.exists_branches loaded
  have nodeShapes : d.document.Shapes node (.allOf branches) :=
    shapes_self (by simp [Schema.IsReference, shape]) shape
  have aloneShapes : d.document.Shapes (Schema.allOf branches) (.allOf branches) :=
    shapes_self (by simp [Schema.IsReference, Schema.allOf, Schema.plain]) rfl
  refine ⟨branches, .allOf branches, loads, ?_, fun path members parent =>
    ⟨?_, fun w accepted => ?_⟩⟩
  · have alone := Schema.ofJson_withAllOf parts
    rwa [loads] at alone
  · exact outcome_validate_of_shapes rfl nodeShapes aloneShapes
  · rw [validate_outcome, outcome_step_allOf nodeShapes rfl] at accepted
    refine ⟨?_, fun lenient own rule _ ownShapes covers =>
      isAccepted_of_covers lenient covers ownShapes accepted⟩
    intro branch isBranch rule p shapes offers given
    obtain ⟨es, merged, made, rfl, keys⟩ := exists_keys_of_checkAllOf accepted isBranch
    obtain ⟨_, same, isKey⟩ := exists_key_of_offers shapes offers given made
    obtain rfl := Value.object.inj same
    exact ⟨merged, rfl, keys p.name isKey⟩

end Validator

namespace Schema

open Json

def payerMembers : Entries Json :=
  [("type", .string "object"), ("properties", .object [("payer", constantText "Ada")]),
    ("required", .array [.string "payer"])]

def payer : Schema :=
  plain (.object { properties := [("payer", constant "Ada")], required := ["payer"] })

def numberedSchema : Json := withProperties [("number", constantText "7")]

def numbered : Schema := plain (.object { properties := [("number", constant "7")] })

def invoice (parts : List Json) : Entries Json := ("allOf", .array parts) :: payerMembers

theorem normalMember_payer :
    normalMember "properties" (.object [("payer", constantText "Ada")]) =
      .object [("payer", normalSchema (constantText "Ada"))] :=
  normalMember_properties (by simp [Ordinary, dataKeys])

theorem ofJson_numberedSchema : ofJson numberedSchema = .ok numbered := by
  rw [numberedSchema, ofJson_withProperties (by simp [Ordinary, dataKeys])]
  simp only [loadEntries, List.mapM_cons, List.mapM_nil, ofJson_constantText]
  rfl

def normalPayerMembers : Entries Json :=
  [("type", .string "object"),
    ("properties", .object [("payer", normalSchema (constantText "Ada"))]),
    ("required", .array [.string "payer"])]

theorem map_payerMembers :
    payerMembers.map (fun e => (e.1, normalMember e.1 e.2)) = normalPayerMembers := by
  simp only [payerMembers, List.map_cons, List.map_nil, normalMember_payer]
  rfl

theorem ofJson_payerMembers : ofJson (.object payerMembers) = .ok payer := by
  have normal : normalSchema (.object payerMembers) = .object normalPayerMembers := by
    rw [normalSchema_eq_map rfl rfl (noList_of_type rfl rfl rfl), map_payerMembers]
  have loaded := ofJson_constantText "Ada"
  rw [ofJson] at loaded
  have inside : sizeOf (Json.object [("payer", normalSchema (constantText "Ada"))]) <
      sizeOf (Json.object normalPayerMembers) :=
    sizeOf_lt_of_mem_members (e := ("properties", _)) (by simp [normalPayerMembers])
  rw [ofJson, normal, ofNormal_of_readFrom (k := { Keywords.blank with
      types := some (.single "object"),
      properties := partMembers ⟨.object [("payer", normalSchema (constantText "Ada"))], inside⟩,
      required := ["payer"] }) rfl
    (by constructor <;> rfl)]
  simp [ofNormal.shapeOf, TypeHint.ofKeywords, Keywords.blank, partMembers, plain, loaded, payer,
    constant]
  rfl

theorem ofJson_invoice (parts : List Json) :
    ofJson (.object (invoice parts)) = allOf <$> parts.mapM ofJson := by
  have normal : normalSchema (.object (invoice parts)) =
      .object (("allOf", .array (parts.map normalSchema)) :: normalPayerMembers) := by
    rw [invoice, normalSchema_eq_map rfl rfl (noList_of_type rfl rfl rfl), List.map_cons,
      map_payerMembers]
    simp only [normalMember_branches (by decide : "allOf" ∈ branchKeys)]
  have inside : ∀ e ∈ ("allOf", .array (parts.map normalSchema)) :: normalPayerMembers,
      sizeOf e.2 < sizeOf (Json.object
        (("allOf", .array (parts.map normalSchema)) :: normalPayerMembers)) :=
    fun _ => sizeOf_lt_of_mem_members
  rw [ofJson, normal, ofNormal_of_readFrom (k := { Keywords.blank with
      types := some (.single "object"),
      properties := partMembers ⟨.object [("payer", normalSchema (constantText "Ada"))],
        inside ("properties", _) (by simp [normalPayerMembers])⟩,
      required := ["payer"],
      allOf := partItems ⟨.array (parts.map normalSchema), inside ("allOf", _) (by simp)⟩ }) rfl
    (by constructor <;> rfl)]
  have branches : (parts.map normalSchema).mapM ofNormal = parts.mapM ofJson := List.mapM_map
  simp [ofNormal.shapeOf, Keywords.blank, partItems, branches]
  rfl

theorem intersects_invoice (parts : List Json) : Intersects (invoice parts) parts where
  wellKeyed := by
    refine ⟨by simp [Entries.Distinct, invoice, payerMembers], fun isUnion => ?_⟩
    cases isUnion <;> simp [branchList, invoice, payerMembers, Entries.get?]
  states := rfl
  unreferenced := rfl
  kept only collapses := by cases collapses

theorem withoutAllOf_invoice (parts : List Json) : withoutAllOf (invoice parts) = payerMembers := by
  simp [withoutAllOf, invoice, payerMembers]

end Schema

namespace Validator

def invoiceNumber : List (String × Value) := [("number", .string "7")]

def paidInvoice : List (String × Value) := [("number", .string "7"), ("payer", .string "Ada")]

def payerRule : ObjectRule Schema :=
  { properties := [("payer", .constant "Ada")], required := ["payer"] }

def fullParts : List Json := [Schema.numberedSchema, .object Schema.payerMembers]

theorem payer_stated_again :
    Schema.Intersects (Schema.invoice fullParts) fullParts ∧
      Schema.ofJson (.object (Schema.invoice fullParts)) =
        .ok (.allOf [.numbered, .payer]) ∧
      Schema.ofJson (.object (Schema.withoutAllOf (Schema.invoice fullParts))) = .ok .payer ∧
      ({} : Validator).Covers [.numbered, .payer] payerRule ∧
      (({} : Validator).validate { root := "q" } (.object paidInvoice)
        (.allOf [.numbered, .payer]) .unknown).outcome = .ok (.object paidInvoice) ∧
      (∃ u, (({} : Validator).validate { root := "q" } (.object paidInvoice) .payer
        .unknown).outcome = .ok u) ∧
      ∃ es, Value.object paidInvoice = .object es ∧ "payer" ∈ Entries.keys es := by
  have branches : fullParts.mapM Schema.ofJson = .ok [.numbered, .payer] := by
    rw [fullParts, List.mapM_cons, List.mapM_cons, Schema.ofJson_numberedSchema,
      Schema.ofJson_payerMembers]
    rfl
  have loaded : Schema.ofJson (.object (Schema.invoice fullParts)) =
      .ok (.allOf [.numbered, .payer]) := by
    rw [Schema.ofJson_invoice, branches]
    rfl
  have own : Schema.ofJson (.object (Schema.withoutAllOf (Schema.invoice fullParts))) =
      .ok .payer := by
    rw [Schema.withoutAllOf_invoice, Schema.ofJson_payerMembers]
  have shapes : ({} : Validator).document.Shapes .payer (.object payerRule) := ⟨.payer, rfl, rfl⟩
  have covers : ({} : Validator).Covers [.numbered, .payer] payerRule :=
    { resolves := by simpa [payerRule] using ⟨_, rfl⟩
      property := fun _ offers => ⟨.payer, by simp, payerRule, shapes, offers, id⟩
      extra := by simp [payerRule] }
  have accepted : (({} : Validator).validate { root := "q" } (.object paidInvoice)
      (.allOf [.numbered, .payer]) .unknown).outcome = .ok (.object paidInvoice) :=
    (checkWithin_below_validate 2 2).outcome_eq_ok rfl
  obtain ⟨_, _, loads, -, agrees⟩ :=
    intersection_outranks {} (Schema.intersects_invoice fullParts) loaded
  obtain rfl := Except.ok.inj (branches.symm.trans loads)
  obtain ⟨keeps, accepts⟩ := (agrees { root := "q" } paidInvoice .unknown).2 _ accepted
  exact ⟨Schema.intersects_invoice fullParts, loaded, own, covers, accepted,
    accepts rfl .payer payerRule own shapes covers,
    keeps .payer (by simp) payerRule ⟨"payer", .constant "Ada", .constant "Ada"⟩ shapes
      ⟨by simp [payerRule], rfl, rfl⟩ (by decide)⟩

/-- The payer is required by the keywords beside the intersection, and not by the intersection: an
invoice without it is accepted, and one that has it is accepted and loses it. -/
theorem payer_overlooked :
    Schema.ofJson (.object (Schema.invoice [Schema.numberedSchema])) =
        .ok (.allOf [.numbered]) ∧
      Schema.ofJson (.object (Schema.withoutAllOf (Schema.invoice [Schema.numberedSchema]))) =
        .ok .payer ∧
      (({} : Validator).validate { root := "q" } (.object invoiceNumber) (.allOf [.numbered])
        .unknown).outcome = .ok (.object invoiceNumber) ∧
      (({} : Validator).validate { root := "q" } (.object invoiceNumber) .payer
        .unknown).IsRefused ∧
      Schema.payer.shape = .object payerRule ∧
      Offers ({} : Validator).document payerRule.properties
        ⟨"payer", .constant "Ada", .constant "Ada"⟩ ∧
      (({} : Validator).validate { root := "q" } (.object paidInvoice) (.allOf [.numbered])
        .unknown).outcome = .ok (.object invoiceNumber) ∧
      "payer" ∈ Entries.keys paidInvoice ∧ "payer" ∉ Entries.keys invoiceNumber := by
  refine ⟨?_, ?_, ?_, ?_, rfl,
    ⟨by simp [payerRule], rfl, rfl⟩, ?_, by decide, by decide⟩
  · rw [Schema.ofJson_invoice, List.mapM_cons, Schema.ofJson_numberedSchema]
    rfl
  · rw [Schema.withoutAllOf_invoice, Schema.ofJson_payerMembers]
  · exact (checkWithin_below_validate 2 2).outcome_eq_ok rfl
  · exact (checkWithin_below_validate 1 1).isRefused ⟨_, rfl⟩
  · exact (checkWithin_below_validate 2 2).outcome_eq_ok rfl

end Validator

end ApiContract

import ApiContract.Proofs.Validation.Origin

/-!
What the check of a document is good for.

A check descends from a closed schema to closed schemas only: what a closed schema resolves to in a
checked document is closed, and so is everything inside. At a closed schema no origin of an error
is a fault of the schema.
-/

namespace ApiContract.Validator

/-- At closed schemas a check never meets a fault of a schema. -/
def Faultless (document : Document) (check : Check) : Prop :=
  ∀ path v schema parent cause, document.Closed schema →
    (check path v schema parent).outcome ≠ .error (.schema cause)

theorem faultless_giveUp (document : Document) : Faultless document giveUp := by
  intro path v schema parent cause _ failed
  simp [giveUp] at failed

theorem faultless_step {d : Validator} {inside across : Check}
    (checked : d.document.checkReferences = .ok ()) (insideFaultless : Faultless d.document inside)
    (acrossFaultless : Faultless d.document across) :
    Faultless d.document (d.step inside across) := by
  intro path v schema parent cause closed failed
  have inTarget {target node : Schema} (resolved : d.document.resolve schema = .ok target)
      (membership : node ∈ target.children) : d.document.Closed node :=
    (closed.of_resolve_eq_ok checked resolved).child membership
  cases origin_of_step_error failed with
  | unresolved unresolved =>
    obtain ⟨target, resolved⟩ := closed.resolves
    simp [unresolved] at resolved
  | unresolvedProperty resolved membership unresolved =>
    obtain ⟨target, resolved⟩ := (inTarget resolved membership).resolves
    simp [unresolved] at resolved
  | notConcrete resolved shape =>
    exact Document.not_isReference_of_resolve_eq_ok resolved ⟨_, shape⟩
  | inner resolved _ membership failed =>
    exact insideFaultless _ _ _ _ _ (inTarget resolved membership) failed
  | branch branch failed =>
    obtain ⟨target, resolved, membership⟩ := branch.leads
    exact acrossFaultless _ _ _ _ _ (inTarget resolved membership) failed

theorem validate_ne_schema {d : Validator} (checked : d.document.checkReferences = .ok ())
    {schema : Schema} (closed : d.document.Closed schema) (path : Path) (v : Value)
    (parent : Parent) (cause : SchemaFault) :
    (d.validate path v schema parent).outcome ≠ .error (.schema cause) :=
  checkWithin_induction d (faultless_giveUp d.document) (fun _ _ => faultless_step checked)
    (d.nodeCount schema) (v.depth + 1) path v schema parent cause closed

/-- The check of a document passes exactly when every reference that occurs in it resolves. Then no
check against a node of the document, or against a reference that resolves in it, ends in a fault of
a schema. -/
theorem checkReferences_suffices (document : Document) :
    (document.checkReferences = .ok () ↔
        ∀ node, document.Occurs node → node.IsReference →
          ∃ target, document.resolve node = .ok target) ∧
      (document.checkReferences = .ok () →
        ∀ schema, document.Occurs schema ∨
            (schema.IsReference ∧ ∃ target, document.resolve schema = .ok target) →
          ∀ (d : Validator) path v parent cause, d.document = document →
            (d.validate path v schema parent).outcome ≠ .error (.schema cause)) := by
  refine ⟨Document.checkReferences_eq_ok_iff, ?_⟩
  rintro checked schema known d path v parent cause rfl
  have closed : d.document.Closed schema := by
    rcases known with occurs | ⟨reference, resolves⟩
    · exact Document.closed_of_occurs checked occurs
    · exact .of_isReference reference resolves
  exact validate_ne_schema checked closed path v parent cause

def pet : Schema :=
  .object [("name", .string), ("parents", .array (.reference "Alias"))] ["name"]

def petDocument : Document := { schemas := [("Alias", .reference "Pet"), ("Pet", pet)] }

theorem petDocument_checkReferences : petDocument.checkReferences = .ok () := by
  refine Document.checkReferences_eq_ok_iff.mpr ?_
  rintro node ⟨named, isNamed, occurs⟩ reference
  have reached : node ∈
      [.reference "Pet", pet, .string, .array (.reference "Alias"), .reference "Alias"] := by
    refine Document.mem_of_reaches (d := petDocument) ?_ ?_ ?_ (Document.reaches_of_occurs occurs)
    · simp [petDocument, Entries.values]
    · simp [Schema.children, pet, Schema.object, Schema.string, Schema.array, Schema.reference,
        Schema.plain, Shape.nodes, Additional.nodes, Entries.values, Entries.ofList,
        Entries.extend, Entries.insert]
    · have root : named = .reference "Pet" ∨ named = pet := by
        simpa [petDocument, Entries.values] using isNamed
      rcases root with rfl | rfl <;> simp
  simp only [List.mem_cons, List.not_mem_nil, or_false] at reached
  rcases reached with rfl | rfl | rfl | rfl | rfl <;> exact ⟨_, rfl⟩

theorem petDocument_check_suffices :
    petDocument.checkReferences = .ok () ∧ (Schema.reference "Alias").IsReference ∧
      (∃ target, petDocument.resolve (.reference "Alias") = .ok target) ∧
      (validate { document := petDocument } { root := "body" }
        (.object [("name", .string "Rex"), ("parents", .array [.object [], .null])])
        (.reference "Alias") .unknown).outcome ≠ .error (.schema (.unresolvable "Pet")) := by
  have reference : (Schema.reference "Alias").IsReference := ⟨"Alias", rfl⟩
  have resolves : ∃ target, petDocument.resolve (.reference "Alias") = .ok target := ⟨_, rfl⟩
  refine ⟨petDocument_checkReferences, reference, resolves, ?_⟩
  exact (checkReferences_suffices petDocument).2 petDocument_checkReferences _
    (.inr ⟨reference, resolves⟩) { document := petDocument } _ _ _ _ rfl

end ApiContract.Validator

import ApiContract.Proofs.Document.References

/-!
Assemblies: objects put together by references, intersections and unions.
-/

namespace ApiContract

inductive Shape.IsScalar : Shape Schema → Prop
  | string {rule} : IsScalar (.string rule)
  | number {rule} : IsScalar (.number rule)
  | boolean : IsScalar .boolean

namespace Document

/-- Branches of branches, down to any depth. -/
def Spans (document : Document) : Schema → Schema → Prop :=
  Relation.ReflTransGen document.Branch

/-- The schema is composite, or an object of scalars that has no schema for other keys. -/
inductive Assembles (document : Document) (s : Schema) : Prop
  | object {rule} : document.Shapes s (.object rule) → (∀ node, rule.additional ≠ .schema node) →
      (∀ e ∈ rule.properties, ∃ shape, document.Shapes e.2 shape ∧ shape.IsScalar) →
      Assembles document s
  | allOf {branches} : document.Shapes s (.allOf branches) → Assembles document s
  | oneOf {branches} : document.Shapes s (.oneOf branches) → Assembles document s

/-- Every part of the schema assembles. -/
def Assembly (document : Document) (s : Schema) : Prop :=
  ∀ node, document.Spans s node → document.Assembles node

variable {document : Document} {s node : Schema} {branches : List Schema}

theorem Assembly.branch (assembly : document.Assembly s) (branch : document.Branch s node) :
    document.Assembly node :=
  fun other spans => assembly other (.head branch spans)

theorem assembly_of_branches (assembles : document.Assembles s)
    (each : ∀ node, document.Branch s node → document.Assembly node) : document.Assembly s := by
  intro node spans
  rcases spans.cases_head with rfl | ⟨branch, isBranch, rest⟩
  · exact assembles
  · exact each branch isBranch node rest

theorem assembly_object {rule : ObjectRule Schema} (shapes : document.Shapes s (.object rule))
    (noSchema : ∀ node, rule.additional ≠ .schema node)
    (scalars : ∀ e ∈ rule.properties, ∃ shape, document.Shapes e.2 shape ∧ shape.IsScalar) :
    document.Assembly s := by
  apply assembly_of_branches (.object shapes noSchema scalars)
  intro node branch
  cases branch with
  | intersected other | alternative other => cases shapes.unique other

theorem assembly_allOf (shapes : document.Shapes s (.allOf branches))
    (each : ∀ branch ∈ branches, document.Assembly branch) : document.Assembly s := by
  apply assembly_of_branches (.allOf shapes)
  intro node branch
  cases branch with
  | intersected other isBranch =>
    obtain rfl := Shape.allOf.inj (shapes.unique other)
    exact each node isBranch
  | alternative other => cases shapes.unique other

theorem assembly_oneOf (shapes : document.Shapes s (.oneOf branches))
    (each : ∀ branch ∈ branches, document.Assembly branch) : document.Assembly s := by
  apply assembly_of_branches (.oneOf shapes)
  intro node branch
  cases branch with
  | intersected other => cases shapes.unique other
  | alternative other isBranch =>
    obtain rfl := Shape.oneOf.inj (shapes.unique other)
    exact each node isBranch

end Document

end ApiContract

import ApiContract.Document.Reference
import ApiContract.Schema.Basic
import ApiContract.Schema.Fault

/-!
Schema documents: named schemas, and the references between them.

Resolution follows a chain of references by name. A chain longer than the number of schemas has come
back to a name it visited before, so the limit on its length tells cycles from long chains.
-/

namespace ApiContract

/-- Named schemas in order, and the address at which the document says it is found. -/
structure Document where
  schemas : List (String × Schema) := []
  selfUri : Option String := none
  distinct : Entries.Distinct schemas := by decide

namespace Document

instance : Inhabited Document := ⟨{}⟩

def insert (d : Document) (name : String) (schema : Schema) : Document :=
  { d with
    schemas := Entries.insert d.schemas name schema
    distinct := d.distinct.insert name schema }

def withSelf (d : Document) (uri : String) : Document := { d with selfUri := some uri }

def get? (d : Document) (name : String) : Option Schema := Entries.get? d.schemas name

def size (d : Document) : Nat := d.schemas.length

def target? (d : Document) (reference : String) : Option Schema :=
  (Reference.schemaName? reference d.selfUri).bind d.get?

/-- Follows references, at most a number of times. -/
def follow (d : Document) : Nat → Schema → Except SchemaFault Schema
  | hops, node =>
    match node.shape with
    | .ref target =>
      match hops with
      | 0 => .error (.referenceCycle target)
      | hops + 1 =>
        match d.target? target with
        | none => .error (.unresolvable target)
        | some next => d.follow hops next
    | _ => .ok node

/-- The node at the end of a chain of references; any other node is its own end. -/
def resolve (d : Document) (node : Schema) : Except SchemaFault Schema :=
  d.follow (d.size + 1) node

/-- One step along a reference. -/
inductive Step (d : Document) : Schema → Schema → Prop
  | ref {node next target} : node.shape = .ref target → d.target? target = some next →
      Step d node next

/-- Resolves a node that is a reference. -/
def checkNode (d : Document) (node : Schema) : Except SchemaFault Unit :=
  match node.shape with
  | .ref _ => (d.resolve node).map fun _ => ()
  | _ => .ok ()

/-- Checks the pending nodes and all nodes inside them. The last one is taken next, and its children
are added at the end. -/
def checkPending (d : Document) (pending : Array Schema) : Except SchemaFault Unit :=
  match _ : pending.back? with
  | none => .ok ()
  | some node => do
    d.checkNode node
    d.checkPending (pending.pop ++ node.children)
termination_by (pending.toList.flatMap Schema.nodes).length
decreasing_by
  obtain ⟨rest, rfl⟩ := Array.back?_eq_some_iff.mp ‹pending.back? = some node›
  simp [node.nodes_eq_cons]

/-- Resolves every reference in the document; the first fault that is met is reported. -/
def checkReferences (d : Document) : Except SchemaFault Unit :=
  d.checkPending (Entries.values d.schemas).toArray

end Document

end ApiContract

import ApiContract.Yaml.Token.Basic

/-!
Nodes of a YAML document.
-/

namespace ApiContract.Yaml

/-- What may precede a node. Anchors are numbered, and an alias tells the number it refers to. -/
structure Properties where
  anchor : Option Nat := none
  tag : Option (List Char) := none

inductive Node where
  | scalar (properties : Properties) (style : ScalarStyle) (text : String)
  | sequence (properties : Properties) (items : List Node)
  | mapping (properties : Properties) (pairs : List (Node × Node))
  | aliasOf (anchor : Nat)

namespace Node

def anchor? : Node → Option Nat
  | scalar p _ _ => p.anchor
  | sequence p _ => p.anchor
  | mapping p _ => p.anchor
  | aliasOf _ => none

mutual

/-- The node and all nodes in it, in the order in which they begin. -/
def nodes : Node → List Node
  | scalar p style text => [scalar p style text]
  | sequence p items => sequence p items :: nodesOfItems items
  | mapping p pairs => mapping p pairs :: nodesOfPairs pairs
  | aliasOf a => [aliasOf a]

def nodesOfItems : List Node → List Node
  | [] => []
  | n :: rest => nodes n ++ nodesOfItems rest

def nodesOfPairs : List (Node × Node) → List Node
  | [] => []
  | (k, v) :: rest => nodes k ++ (nodes v ++ nodesOfPairs rest)

end

def isCollection : Node → Bool
  | sequence _ _ => true
  | mapping _ _ => true
  | _ => false

def eventCount (n : Node) : Nat := n.nodes.length + (n.nodes.filter isCollection).length

/-- The node that an alias in the tree stands for. When a name was given twice, numbers may be
taken twice too; the node that begins last has the number. -/
def anchored? (root : Node) (anchor : Nat) : Option Node :=
  root.nodes.reverse.find? fun n => n.anchor? = some anchor

end Node

end ApiContract.Yaml

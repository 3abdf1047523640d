import ApiContract.Fault
import ApiContract.Switches
import ApiContract.Yaml.Loader

/-!
Switches from YAML text: a mapping in which each switch stands at most once. Unknown keys are
ignored; a missing switch, or a text that holds nothing, means off.
-/

namespace ApiContract

namespace Yaml.Node

/-- A boolean stands as a plain scalar, or as a literal block that is tagged as one. -/
def boolean? (find : Nat → Option Node) (n : Node) : Following Bool := do
  match ← n.follow find with
  | scalar p style text =>
    if style = .plain ∨ (style = .literal ∧ p.tag.map ScalarTag.ofName = some .boolean) then
      Yaml.boolean? text
    else failure
  | _ => failure

/-- The pairs of a mapping; an empty plain scalar is a mapping without any. -/
def pairs? (find : Nat → Option Node) (n : Node) : Following (List (Node × Node)) := do
  match ← n.follow find with
  | mapping _ pairs => return pairs
  | scalar _ style text => if style = .plain ∧ text = "" then return [] else failure
  | _ => failure

end Yaml.Node

namespace Switches

open Yaml

/-- Reads the pairs of a mapping into switches; each switch is given at most once. -/
def readPairs (find : Nat → Option Node) :
    List (Node × Node) → Option Bool → Option Bool → Following Switches
  | [], log, reject => return ⟨log.getD false, reject.getD false⟩
  | (k, v) :: rest, log, reject => do
    let key ← k.keyText find
    if key = logKey then
      if log.isSome then failure
      let on ← v.boolean? find
      readPairs find rest (some on) reject
    else if key = rejectKey then
      if reject.isSome then failure
      let on ← v.boolean? find
      readPairs find rest log (some on)
    else readPairs find rest log reject

def ofYaml (text : String) : Except Fault Switches :=
  let read := (root? text).bind fun root =>
    match root with
    | none => some {}
    | some node =>
      let find := node.anchored?
      ((node.pairs? find).bind fun pairs => readPairs find pairs none none).run' (aliasLimit node)
  match read with
  | some s => .ok s
  | none => .error .yaml

end Switches

end ApiContract

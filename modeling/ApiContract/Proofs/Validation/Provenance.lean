import ApiContract.Binding.Binder
import ApiContract.Binding.Response
import ApiContract.Proofs.Validation.Acceptance
import ApiContract.Proofs.Validation.Recursion

/-!
Where the parts of a result come from.

What an accepted value becomes is made of it and of defaults (`Derives`). Containers stay what they
are, arrays keep their length, and a scalar is kept or coerced. Merging the results of an
intersection stays within this, because an object is never accepted as anything but an object.
-/

namespace ApiContract

namespace Value

/-- What a value itself may become: it is kept, or coerced from a text or a number. -/
inductive Coerces (readsText : Bool) : Value → Value → Prop
  | kept {v} : Coerces readsText v v
  | flag {v b} : v.toBool? = some b → Coerces readsText v (.bool b)
  | instant {s t} : Calendar.Instant.ofText? s = some t →
      Coerces readsText (.string s) (.date t)
  | number {s x} : readsText = true → NumberRule.read? true (.string s) = some x →
      Coerces readsText (.string s) (.number x)

/-- What a value becomes when its parts may change as well. -/
inductive Yields (readsText : Bool) : Value → Value → Prop
  | coerced {v w} : Coerces readsText v w → Yields readsText v w
  | array {items results} : items.length = results.length →
      Yields readsText (.array items) (.array results)
  | object {members results} : Yields readsText (.object members) (.object results)

mutual

/-- A result made of a value and of defaults. A default stands for null or for a member that is
missing. -/
inductive Derives (IsDefault : Value → Prop) (readsText : Bool) : Value → Value → Prop
  | coerced {v w} : Coerces readsText v w → Derives IsDefault readsText v w
  | filled {w} : IsDefault w → Derives IsDefault readsText .null w
  | array {items results} : items.length = results.length →
      (∀ (i : Nat) item result, items[i]? = some item → results[i]? = some result →
        Derives IsDefault readsText item result) →
      Derives IsDefault readsText (.array items) (.array results)
  | object {members results} :
      (∀ e ∈ results, Enters IsDefault readsText members e.1 e.2) →
      Derives IsDefault readsText (.object members) (.object results)

/-- A member of a result made of some members and of defaults. -/
inductive Enters (IsDefault : Value → Prop) (readsText : Bool) :
    List (String × Value) → String → Value → Prop
  | filled {members key w} : IsDefault w → Enters IsDefault readsText members key w
  | derived {members key v w} : (key, v) ∈ members → Derives IsDefault readsText v w →
      Enters IsDefault readsText members key w

end

variable {IsDefault : Value → Prop} {readsText : Bool} {v w : Value}

/-- A part of a result that is part of a default in it. -/
def InDefault (IsDefault : Value → Prop) (w : Value) (steps : List Segment) (part : Value) : Prop :=
  ∃ before after default, steps = before ++ after ∧ w.Holds before default ∧ IsDefault default ∧
    default.Holds after part

theorem InDefault.here {steps : List Segment} {part : Value} (isDefault : IsDefault w)
    (holds : w.Holds steps part) : InDefault IsDefault w steps part :=
  ⟨[], steps, w, rfl, .here, isDefault, holds⟩

theorem InDefault.outside {s : Segment} {steps : List Segment} {part inner : Value}
    (member : w.Member s inner) (inDefault : InDefault IsDefault inner steps part) :
    InDefault IsDefault w (s :: steps) part := by
  obtain ⟨before, after, default, rfl, holds, isDefault, inside⟩ := inDefault
  exact ⟨s :: before, after, default, rfl, .deeper member holds, isDefault, inside⟩

/-- Every part of a result is part of a default, or comes from the part of the value at the same
place. -/
theorem Derives.parts {steps : List Segment} {part : Value}
    (derives : Derives IsDefault readsText v w) (holds : w.Holds steps part) :
    InDefault IsDefault w steps part ∨
      ∃ source, v.Holds steps source ∧ Yields readsText source part := by
  induction holds generalizing v with
  | here =>
    cases derives with
    | coerced coerces => exact .inr ⟨v, .here, .coerced coerces⟩
    | filled isDefault => exact .inl (.here isDefault .here)
    | array length _ => exact .inr ⟨_, .here, .array length⟩
    | object _ => exact .inr ⟨_, .here, .object⟩
  | @deeper w inner part s steps member holds ih =>
    have further {source : Value} (inSource : v.Member s source)
        (derives : Derives IsDefault readsText source inner) :
        InDefault IsDefault w (s :: steps) part ∨
          ∃ source, v.Holds (s :: steps) source ∧ Yields readsText source part := by
      rcases ih derives with inDefault | ⟨source, held, yields⟩
      · exact .inl (.outside member inDefault)
      · exact .inr ⟨source, .deeper inSource held, yields⟩
    cases derives with
    | coerced coerces =>
      cases coerces with
      | kept => exact .inr ⟨part, .deeper member holds, .coerced .kept⟩
      | _ => cases member
    | filled isDefault => exact .inl (.here isDefault (.deeper member holds))
    | @array items results length derives =>
      cases member with
      | @item _ i _ found =>
        obtain ⟨source, atItem⟩ : ∃ source, items[i]? = some source := by
          have bound := (List.getElem?_eq_some_iff.mp found).1
          exact ⟨items[i], List.getElem?_eq_getElem (length ▸ bound)⟩
        exact further (.item atItem) (derives i source inner atItem found)
    | object enters =>
      cases member with
      | entry isEntry =>
        cases enters _ isEntry with
        | filled isDefault => exact .inl (.outside (.entry isEntry) (.here isDefault holds))
        | derived isMember derives => exact further (.entry isMember) derives

/-- Nothing but an object becomes an object, and each of its members enters into the result. -/
theorem Derives.exists_members {results : List (String × Value)} (present : v.isNull = false)
    (derives : Derives IsDefault readsText v (.object results)) :
    ∃ members, v = .object members ∧ ∀ e ∈ results, Enters IsDefault readsText members e.1 e.2 := by
  cases derives with
  | coerced coerces =>
    cases coerces with
    | kept => exact ⟨results, rfl, fun e isEntry => .derived isEntry (.coerced .kept)⟩
  | filled _ => simp [isNull] at present
  | object enters => exact ⟨_, rfl, enters⟩

theorem Derives.merge {first next : Value} (present : v.isNull = false)
    (firstDerives : Derives IsDefault readsText v first)
    (nextDerives : Derives IsDefault readsText v next) :
    Derives IsDefault readsText v (Validator.merge first next) := by
  unfold Validator.merge
  split
  · next earlier later =>
    obtain ⟨members, rfl, firstEnters⟩ := firstDerives.exists_members present
    obtain ⟨_, same, nextEnters⟩ := nextDerives.exists_members present
    obtain rfl := Value.object.inj same
    refine .object fun e isEntry => ?_
    rcases Entries.mem_of_mem_extend isEntry with isEarlier | isLater
    · exact firstEnters e isEarlier
    · exact nextEnters e isLater
  · exact nextDerives

end Value

theorem StringRule.coerces_of_coerce_eq_ok {rule : StringRule} {readsText : Bool} {v w : Value}
    (accepted : rule.coerce v = .ok w) : Value.Coerces readsText v w := by
  cases coerce_eq_ok_iff.mp accepted with
  | instant _ _ read => exact .instant read
  | _ => exact .kept

theorem NumberRule.coerces_of_coerce_eq_ok {rule : NumberRule} {readsText : Bool} {v : Value}
    {x : Binary64} (accepted : rule.coerce readsText v = .ok x) :
    Value.Coerces readsText v (.number x) := by
  obtain ⟨read, -⟩ := coerce_eq_ok_iff.mp accepted
  cases v with
  | number y =>
    obtain rfl : y = x := by simpa [read?] using read
    exact .kept
  | string s =>
    cases readsText with
    | true => exact .number rfl read
    | false => simp [read?] at read
  | _ => simp [read?] at read

/-- The default of a node that can be reached from a schema. -/
def Document.IsDefault (document : Document) (schema : Schema) (default : Value) : Prop :=
  ∃ node, document.Reaches schema node ∧ node.default? = some default

namespace Validator

variable {d : Validator} {check inside across : Check} {path : Path} {v w : Value}
  {parent : Parent} {IsDefault : Value → Prop}

/-- What a check accepts it makes of the value and of the defaults that its schema reaches. -/
def Traces (d : Validator) (IsDefault : Value → Prop) (check : Check) : Prop :=
  ∀ path v schema parent w,
    (∀ node, d.document.Reaches schema node → ∀ default, node.default? = some default →
      IsDefault default) →
    (check path v schema parent).outcome = .ok w →
    Value.Derives IsDefault (d.readsText path) v w

theorem derives_of_checkNull_eq_ok {schema target : Schema} {readsText : Bool}
    (defaults : ∀ default, (schema.default? <|> target.default?) = some default →
      IsDefault default)
    (accepted : (checkNull path schema target).outcome = .ok w) :
    Value.Derives IsDefault readsText .null w := by
  obtain ⟨-, rfl⟩ := checkNull_eq_ok.mp accepted
  cases filled : (schema.default? <|> target.default?) with
  | none => exact .coerced .kept
  | some default => exact .filled (defaults default filled)

theorem derives_of_checkArray_eq_ok {rule : ArrayRule Schema} {readsText : Bool}
    (items : ∀ segment v w, (check (path.child segment) v rule.items .array).outcome = .ok w →
      Value.Derives IsDefault readsText v w)
    (accepted : (checkArray check path v rule).outcome = .ok w) :
    Value.Derives IsDefault readsText v w := by
  obtain ⟨given, results, rfl, -, related, rfl⟩ := checkArray_eq_ok.mp accepted
  refine .array (by simpa using related.length_eq) fun i item result atItem atResult => ?_
  exact items _ item result (forall₂_zipIdx_getElem? related atItem atResult)

theorem derives_of_checkObject_eq_ok {rule : ObjectRule Schema} {readsText : Bool}
    (defaults : ∀ node ∈ (Shape.object rule).nodes, ∀ target,
      d.document.resolve node = .ok target →
      ∀ default, (node.default? <|> target.default?) = some default → IsDefault default)
    (inner : ∀ segment v node w, node ∈ (Shape.object rule).nodes →
      (check (path.child segment) v node .object).outcome = .ok w →
      Value.Derives IsDefault readsText v w)
    (accepted : (d.checkObject check path v rule parent).outcome = .ok w) :
    Value.Derives IsDefault readsText v w := by
  obtain ⟨members, ps, results, rfl, rfl, resolved, entries, -⟩ :=
    entries_of_checkObject_eq_ok accepted
  have inRule {p : Declared} (isDeclared : p ∈ ps) : p.node ∈ (Shape.object rule).nodes :=
    ObjectRule.mem_nodes_of_property (mem_properties_of_mem_declared resolved isDeclared).1
  refine .object ?_
  rintro ⟨key, w⟩ isEntry
  have origin : Entry d check path rule members ps key w := entries _ isEntry
  cases origin with
  | given isDeclared found passed =>
    exact .derived (Entries.mem_of_get?_eq_some found) (inner _ _ _ _ (inRule isDeclared) passed)
  | default isDeclared _ filled =>
    have target := (mem_properties_of_mem_declared resolved isDeclared).2
    exact .filled (defaults _ (inRule isDeclared) _ target _ filled)
  | copied _ _ _ isMember => exact .derived isMember (.coerced .kept)
  | @checked _ node _ _ _ additional isMember passed =>
    have isNode := ObjectRule.mem_nodes_of_additional additional
    exact .derived isMember (inner _ _ _ _ isNode passed)

theorem derives_of_checkAllOf_eq_ok {branches : List Schema} {readsText : Bool}
    (present : v.isNull = false)
    (branch : ∀ node ∈ branches, ∀ w, (check path v node .allOf).outcome = .ok w →
      Value.Derives IsDefault readsText v w)
    (accepted : (checkAllOf check path v branches).outcome = .ok w) :
    Value.Derives IsDefault readsText v w := by
  obtain ⟨results, related, rfl⟩ := checkAllOf_eq_ok.mp accepted
  have derives : ∀ result ∈ results, Value.Derives IsDefault readsText v result := by
    intro result isResult
    obtain ⟨node, isBranch, passed⟩ := Outcome.exists_mem_left_of_forall₂ related isResult
    exact branch node isBranch result passed
  cases results with
  | nil => exact .coerced .kept
  | cons first rest =>
    clear related accepted
    induction rest generalizing first with
    | nil => exact derives first List.mem_cons_self
    | cons next rest ih =>
      have merged := (derives first List.mem_cons_self).merge present
        (derives next (List.mem_cons_of_mem first List.mem_cons_self))
      refine ih (merge first next) fun result isResult => ?_
      rcases List.mem_cons.mp isResult with rfl | later
      · exact merged
      · exact derives result (List.mem_cons_of_mem first (List.mem_cons_of_mem next later))

theorem traces_giveUp (d : Validator) (IsDefault : Value → Prop) : d.Traces IsDefault giveUp := by
  intro path v schema parent w _ accepted
  simp [giveUp] at accepted

theorem traces_step (insideTraces : d.Traces IsDefault inside)
    (acrossTraces : d.Traces IsDefault across) :
    d.Traces IsDefault (d.step inside across) := by
  intro path v schema parent w defaults stepped
  obtain ⟨target, resolved, accepted⟩ := step_eq_ok.mp stepped
  have toTarget : d.document.Reaches schema target := Document.reaches_of_resolve_eq_ok resolved
  have inTarget {node : Schema} (isChild : node ∈ target.children) (other : Schema)
      (reaches : d.document.Reaches node other) (default : Value)
      (isDefault : other.default? = some default) : IsDefault default :=
    defaults other ((Document.reaches_of_leads ⟨target, resolved, isChild⟩).trans reaches) default
      isDefault
  have either {node target : Schema} (reaches : d.document.Reaches schema node)
      (toTarget : d.document.Reaches node target) (default : Value)
      (filled : (node.default? <|> target.default?) = some default) : IsDefault default := by
    cases own : node.default? with
    | some other =>
      obtain rfl : other = default := by simpa [own] using filled
      exact defaults node reaches other own
    | none => exact defaults target (reaches.trans toTarget) default (by simpa [own] using filled)
  rcases accepted with ⟨isNull, accepted⟩ | ⟨present, accepts⟩
  · obtain rfl := Value.eq_null_of_isNull isNull
    exact derives_of_checkNull_eq_ok (either .refl toTarget) accepted
  unfold Schema.children at inTarget
  cases accepts with
  | string shape coerced => exact .coerced (StringRule.coerces_of_coerce_eq_ok coerced)
  | number shape coerced => exact .coerced (NumberRule.coerces_of_coerce_eq_ok coerced)
  | boolean shape coerced => exact .coerced (.flag coerced)
  | array shape accepted =>
    refine derives_of_checkArray_eq_ok (fun segment v w passed => ?_) accepted
    exact insideTraces (path.child segment) v _ _ w (inTarget (by simp [shape, Shape.nodes])) passed
  | object shape accepted =>
    rw [shape] at inTarget
    refine derives_of_checkObject_eq_ok (fun node inRule other resolvedNode => ?_)
      (fun segment v node w inRule passed => ?_) accepted
    · have leads := Document.leads_of_mem_nodes resolved shape inRule
      exact either (Document.reaches_of_leads leads)
        (Document.reaches_of_resolve_eq_ok resolvedNode)
    · exact insideTraces (path.child segment) v node _ w (inTarget inRule) passed
  | allOf shape accepted =>
    rw [shape] at inTarget
    refine derives_of_checkAllOf_eq_ok present (fun node isBranch w passed => ?_) accepted
    exact acrossTraces path v node _ w (inTarget isBranch) passed
  | oneOf shape accepted =>
    rw [shape] at inTarget
    obtain ⟨node, isBranch, passed⟩ := exists_branch_of_checkOneOf_eq_ok accepted
    exact acrossTraces path v node _ w (inTarget isBranch) passed
  | any shape => exact .coerced .kept
  | unknown shape => exact .coerced .kept

theorem derives_of_validate_eq_ok {schema : Schema}
    (accepted : (d.validate path v schema parent).outcome = .ok w) :
    Value.Derives (d.document.IsDefault schema) (d.readsText path) v w :=
  checkWithin_induction d (traces_giveUp d _) (fun _ _ => traces_step) (d.nodeCount schema)
    (v.depth + 1) path v schema parent w
    (fun node reaches _ isDefault => ⟨node, reaches, isDefault⟩) accepted

end Validator

end ApiContract

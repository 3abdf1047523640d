import ApiContract.Proofs.Validation.Branches

/-!
Schemas under which a second check changes nothing.

A union takes the first or richest result, and an intersection lets the later branch win, so neither
is bound to accept its own result as it is. Both do where no default comes up, the branches of
unions concur and those of intersections compose.
-/

namespace ApiContract

namespace Validator

variable {d : Validator} {inside across : Check} {path : Path} {v w : Value} {schema : Schema}
  {parent : Parent}

def listed (texts : List String) : Schema := .plain (.string { allowed := some texts })

theorem resolve_listed (document : Document) (texts : List String) :
    document.resolve (listed texts) = .ok (listed texts) :=
  Document.resolve_of_not_isReference (by simp [Schema.IsReference, listed, Schema.plain])

theorem exists_text_of_listed {texts : List String}
    (accepted : (d.validate path v (listed texts) parent).outcome = .ok w) :
    ∃ s ∈ texts, v = .string s := by
  rw [validate_outcome] at accepted
  obtain ⟨target, resolved, accepted⟩ := step_eq_ok.mp accepted
  obtain rfl : listed texts = target := Except.ok.inj ((resolve_listed _ _).symm.trans resolved)
  rcases accepted with ⟨-, accepted⟩ | ⟨-, accepts⟩
  · obtain ⟨nullable, -⟩ := checkNull_eq_ok.mp accepted
    simp [listed, Schema.plain] at nullable
  · cases accepts.of_string rfl with
    | text violation _ =>
      obtain ⟨-, -, isListed, -⟩ := StringRule.violation?_eq_none_iff.mp violation
      exact ⟨_, isListed texts rfl, rfl⟩
    | date isDate => simp [StringRule.isDate] at isDate
    | binary isBinary => simp [StringRule.isBinary] at isBinary
    | instant _ isDate _ => simp [StringRule.isDate] at isDate

theorem refused_of_not_listed {texts : List String} {s : String} (other : s ∉ texts) :
    ∃ failure, (d.validate path (.string s) (listed texts) parent).outcome =
      .error (.invalid failure) := by
  cases violation : StringRule.violation? { allowed := some texts } s with
  | none =>
    obtain ⟨-, -, isListed, -⟩ := StringRule.violation?_eq_none_iff.mp violation
    exact absurd (isListed texts rfl) other
  | some reason =>
    refine ⟨.echoing path reason (.string s), ?_⟩
    have refused : StringRule.coerce { allowed := some texts } (.string s) = .error reason := by
      simp [StringRule.coerce, violation]
    rw [validate_outcome, step]
    simp only [resolve_listed]
    simp [listed, Schema.plain, checkString, refused, Validation.refuse, Value.isNull,
      Except.mapError]

def tagProperty (key : String) (texts : List String) : Declared :=
  { name := key, node := listed texts, target := listed texts }

/-- An object that requires a text from a list under a key, which it declares before any other. -/
inductive Tagged (document : Document) (key : String) (texts : List String) (s : Schema) : Prop
  | intro {rule : ObjectRule Schema} {others} : document.Shapes s (.object rule) →
      rule.properties = (key, listed texts) :: others → key ∈ rule.required →
      (∀ e ∈ others, document.Resolves e.2) → Tagged document key texts s

theorem Tagged.exists_text {key : String} {texts : List String} {branch : Schema}
    (tagged : Tagged d.document key texts branch) (present : v.isNull = false)
    (accepted : (d.validate path v branch parent).outcome = .ok w) :
    ∃ members, v = .object members ∧
      ∃ s ∈ texts, Entries.get? members key = some (.string s) := by
  obtain ⟨⟨target, resolved, shape⟩, properties, isRequired, -⟩ := tagged
  have passed := (accepts_of_validate_eq_ok present resolved accepted).of_object shape
  obtain ⟨members, ps, results, extra, rfl, declares, related, -, -⟩ := checkObject_eq_ok.mp passed
  refine ⟨members, rfl, ?_⟩
  have isDeclared : tagProperty key texts ∈ ps := by
    obtain ⟨rest, rfl⟩ := exists_cons_of_declared (tagProperty key texts) ⟨_, properties⟩
      (resolve_listed _ _) rfl declares
    exact List.mem_cons_self
  obtain ⟨result, -, passed⟩ := Outcome.exists_mem_right_of_forall₂ related isDeclared
  cases found : Entries.get? members key with
  | none =>
    rcases (checkProperty_eq_ok_of_none found).mp passed with ⟨-, isAny, -⟩ | ⟨optional, -⟩
    · simp [tagProperty, listed, Schema.plain, Schema.isAny] at isAny
    · exact absurd isRequired optional
  | some given =>
    obtain ⟨_, checked, -⟩ := (checkProperty_eq_ok_of_some found).mp passed
    obtain ⟨s, isListed, rfl⟩ := exists_text_of_listed checked
    exact ⟨s, isListed, rfl⟩

/-- An object whose tag is not one of the listed texts is turned down before anything else in it is
looked at. -/
theorem Tagged.refused {key : String} {texts : List String} {branch : Schema} {s : String}
    {members : List (String × Value)} (tagged : Tagged d.document key texts branch)
    (found : Entries.get? members key = some (.string s)) (other : s ∉ texts) :
    ∃ failure, (d.validate path (.object members) branch parent).outcome =
      .error (.invalid failure) := by
  obtain @⟨rule, others, ⟨target, resolved, shape⟩, properties, -, resolves⟩ := tagged
  have refused : ∃ failure, (d.validate (path.child (.key key)) (.string s) (listed texts)
      .object).outcome = .error (.invalid failure) := refused_of_not_listed other
  obtain ⟨failure, refused⟩ := refused
  have everyResolves : ∀ e ∈ rule.properties, d.document.Resolves e.2 := by
    rw [properties]
    exact List.forall_mem_cons.mpr ⟨⟨_, resolve_listed _ _⟩, resolves⟩
  obtain ⟨ps, declares⟩ := exists_declared everyResolves
  obtain ⟨rest, rfl⟩ := exists_cons_of_declared (tagProperty key texts) ⟨_, properties⟩
    (resolve_listed _ _) rfl declares
  have property : (checkProperty d.validate path rule.required members
      (tagProperty key texts)).outcome = .error (.invalid failure) := by
    unfold checkProperty
    have given : Entries.get? members (tagProperty key texts).name = some (.string s) := found
    simp only [given]
    exact Report.outcome_bind_eq_error.mpr (.inl refused)
  refine ⟨failure, ?_⟩
  rw [outcome_validate_object resolved shape, checkObject]
  refine Report.outcome_bind_eq_error.mpr (.inr ⟨tagProperty key texts :: rest, ?_, ?_⟩)
  · simp [declares, Except.mapError]
  refine Report.outcome_bind_eq_error.mpr (.inl ?_)
  exact Report.outcome_mapM_eq_error.mpr ⟨[], tagProperty key texts, rest, rfl, by simp, property⟩

theorem concurs_of_tagged {key : String} {texts others : List String} {a b : Schema}
    (first : Tagged d.document key texts a) (second : Tagged d.document key others b)
    (apart : texts.Disjoint others) : d.Concurs parent a b := by
  intro path v w present accepted
  obtain ⟨members, rfl, s, isListed, found⟩ := first.exists_text present accepted
  exact .inr (second.refused found fun isOther => apart isListed isOther)

theorem additive_of_properties {branches : List Schema} (entries : List (String × Schema))
    (distinct : Entries.Distinct entries)
    (parts : ∀ branch ∈ branches, ∃ rule, d.document.Shapes branch (.object rule) ∧
      rule.additional = .unset ∧ ∀ e ∈ rule.properties, e ∈ entries) : d.Additive branches := by
  constructor
  · intro branch isBranch
    obtain ⟨rule, shapes, unset, -⟩ := parts branch isBranch
    exact ⟨rule, shapes, Additional.strips_iff.mpr ⟨by simp [unset], by simp [unset]⟩⟩
  · intro a isBranch b isOther rule other shapes otherShapes key node node' isEntry isOtherEntry
    obtain ⟨_, again, -, properties⟩ := parts a isBranch
    obtain ⟨_, otherAgain, -, otherProperties⟩ := parts b isOther
    obtain rfl := Shape.object.inj (shapes.unique again)
    obtain rfl := Shape.object.inj (otherShapes.unique otherAgain)
    have found := Entries.get?_eq_some_of_mem distinct (properties _ isEntry)
    rw [Entries.get?_eq_some_of_mem distinct (otherProperties _ isOtherEntry)] at found
    exact (Option.some.inj found).symm

/-- A node at which a second check finds what the first one made. -/
structure Stable (d : Validator) (s : Schema) : Prop where
  noDefault : s.default? = none
  keyed : s.Keyed
  unions : ∀ branches, s.shape = .oneOf branches →
    ∀ a ∈ branches, ∀ b ∈ branches, d.Concurs .oneOf a b
  intersections : ∀ branches, s.shape = .allOf branches → d.Composes branches

theorem stable_of_no_branches {s : Schema} (noDefault : s.default? = none) (keyed : s.Keyed)
    (noUnion : ∀ branches, s.shape ≠ .oneOf branches)
    (noIntersection : ∀ branches, s.shape ≠ .allOf branches) : d.Stable s where
  noDefault := noDefault
  keyed := keyed
  unions branches shape := absurd shape (noUnion branches)
  intersections branches shape := absurd shape (noIntersection branches)

theorem stable_object (properties : List (String × Schema)) (required : List String) :
    d.Stable (.object properties required) := by
  refine stable_of_no_branches rfl (Schema.keyed_object properties required) ?_ ?_ <;>
    simp [Schema.object, Schema.plain]

theorem stable_oneOf {branches : List Schema}
    (concur : ∀ a ∈ branches, ∀ b ∈ branches, d.Concurs .oneOf a b) :
    d.Stable (.oneOf branches) := by
  refine ⟨rfl, Schema.keyed_of_not_object ?_, ?_, ?_⟩
  · simp [Schema.oneOf, Schema.plain]
  · intro other shape
    obtain rfl := Shape.oneOf.inj shape
    exact concur
  · simp [Schema.oneOf, Schema.plain]

theorem stable_allOf {branches : List Schema} (composes : d.Composes branches) :
    d.Stable (.allOf branches) := by
  refine ⟨rfl, Schema.keyed_of_not_object ?_, ?_, ?_⟩
  · simp [Schema.allOf, Schema.plain]
  · simp [Schema.allOf, Schema.plain]
  · intro other shape
    obtain rfl := Shape.allOf.inj shape
    exact composes

theorem settlesOn_step
    (acrossBelow : ∀ path v schema parent,
      (across path v schema parent).Below (d.validate path v schema parent))
    (insideSettles : d.SettlesOn d.Stable inside) (acrossSettles : d.SettlesOn d.Stable across) :
    d.SettlesOn d.Stable (d.step inside across) := by
  intro path v schema parent w reachable accepted
  have inTarget {node : Schema} (leads : d.document.Leads schema node) (other : Schema)
      (reaches : d.document.Reaches node other) : d.Stable other :=
    reachable other ((Document.reaches_of_leads leads).trans reaches)
  rw [validate_outcome]
  refine step_again (fun node reaches => (reachable node reaches).noDefault)
    (fun node reaches => (reachable node reaches).keyed) ?_ ?_ ?_ accepted
  · intro path v node parent w leads passed
    exact (insideSettles path v node parent w (inTarget leads) passed).2
  · intro target branches resolved shape present accepted
    have stable := reachable target (Document.reaches_of_resolve_eq_ok resolved)
    have inBranch (branch : Schema) (isBranch : branch ∈ branches) :
        ∀ node, d.document.Reaches branch node → d.Stable node :=
      inTarget (Document.leads_of_mem_nodes resolved shape isBranch)
    refine checkAllOf_again_of_composes (stable.intersections branches shape)
      (fun branch isBranch node reaches => (inBranch branch isBranch node reaches).noDefault)
      (fun branch isBranch node reaches => (inBranch branch isBranch node reaches).keyed)
      present ?_ accepted
    intro branch isBranch w passed
    obtain ⟨same, again⟩ := acrossSettles path v branch _ w (inBranch branch isBranch) passed
    exact ⟨same.trans present, (acrossBelow _ _ _ _).outcome_eq_ok passed, again⟩
  · intro target branches resolved shape present accepted
    have stable := reachable target (Document.reaches_of_resolve_eq_ok resolved)
    obtain ⟨branch, isBranch, passed⟩ := exists_branch_of_checkOneOf_eq_ok accepted
    have leads := Document.leads_of_mem_nodes resolved shape isBranch
    obtain ⟨same, again⟩ := acrossSettles path v branch _ w (inTarget leads) passed
    have presentAgain : w.isNull = false := same.trans present
    refine ⟨presentAgain, checkOneOf_again isBranch again fun node isNode => ?_⟩
    exact stable.unions branches shape branch isBranch node isNode path w w presentAgain again

theorem settlesOn_validate (d : Validator) : d.SettlesOn d.Stable d.validate := by
  intro path v schema parent w stable accepted
  have settles := checkWithin_induction d (P := fun check =>
    (∀ path v schema parent,
      (check path v schema parent).Below (d.validate path v schema parent)) ∧
      d.SettlesOn d.Stable check) ?_ ?_ (d.nodeCount schema) (v.depth + 1)
  · exact settles.2 path v schema parent w stable accepted
  · exact ⟨fun _ _ _ _ => giveUp_below, fun _ _ _ _ _ _ accepted => by simp [giveUp] at accepted⟩
  · rintro inside across ⟨insideBelow, insideSettles⟩ ⟨acrossBelow, acrossSettles⟩
    exact ⟨fun _ _ _ _ => step_below_validate insideBelow acrossBelow,
      settlesOn_step acrossBelow insideSettles acrossSettles⟩

/-- Where every node that can be reached is stable, checking what a check accepted gives the same
value. Where only what the branches of a union reach is stable, it may give another value, but the
union does not turn its result down. -/
theorem accepted_again {d : Validator} {path : Path} {v w : Value} {schema : Schema}
    {parent : Parent} (accepted : (d.validate path v schema parent).outcome = .ok w) :
    ((∀ node, d.document.Reaches schema node → d.Stable node) →
        (d.validate path w schema parent).outcome = .ok w) ∧
      ∀ branches, d.document.Shapes schema (.oneOf branches) → v.isNull = false →
        (∀ branch ∈ branches, ∀ node, d.document.Reaches branch node → d.Stable node) →
        ∀ failure, (d.validate path w schema parent).outcome ≠ .error (.invalid failure) := by
  constructor
  · intro stable
    exact (settlesOn_validate d path v schema parent w stable accepted).2
  · rintro branches ⟨target, resolved, shape⟩ present stable failure
    have accepts := accepts_of_validate_eq_ok present resolved accepted
    obtain ⟨branch, isBranch, passed⟩ :=
      exists_branch_of_checkOneOf_eq_ok (accepts.of_oneOf shape)
    obtain ⟨same, again⟩ :=
      settlesOn_validate d path v branch .oneOf w (stable branch isBranch) passed
    have unfolded : (d.validate path w schema parent).outcome =
        (checkOneOf d.validate path w branches).outcome := by
      rw [validate_outcome, step]
      simp [resolved, shape, Except.mapError, same, present]
    rw [unfolded]
    exact checkOneOf_ne_invalid isBranch again failure

def cat : Schema := .object [("kind", listed ["cat"]), ("indoor", .boolean)] ["kind"]

def dog : Schema := .object [("kind", listed ["dog"]), ("loud", .boolean)] ["kind"]

def animal : Schema := .oneOf [.reference "Cat", .reference "Dog"]

def region : Schema := .oneOf [listed ["North"], listed ["South"]]

def located : Schema := .object [("region", region)] ["region"]

def park : Schema := .object [("region", region), ("animals", .array animal)] []

def zooDocument : Document := { schemas := [("Cat", cat), ("Dog", dog), ("Located", located)] }

def zoo : Schema := .allOf [.reference "Located", park]

def givenAnimal : Value := .object [("loud", .string "0"), ("kind", .string "dog")]

def acceptedAnimal : Value := .object [("kind", .string "dog"), ("loud", .bool false)]

def givenZoo : Value := .object [("animals", .array [givenAnimal]), ("region", .string "North")]

def acceptedZoo : Value :=
  .object [("region", .string "North"), ("animals", .array [acceptedAnimal])]

theorem cat_tagged : Tagged zooDocument "kind" ["cat"] (.reference "Cat") := by
  refine .intro ⟨cat, rfl, rfl⟩ rfl (by decide) ?_
  exact List.forall_mem_singleton.mpr ⟨.boolean, rfl⟩

theorem dog_tagged : Tagged zooDocument "kind" ["dog"] (.reference "Dog") := by
  refine .intro ⟨dog, rfl, rfl⟩ rfl (by decide) ?_
  exact List.forall_mem_singleton.mpr ⟨.boolean, rfl⟩

theorem animal_stable : Stable { document := zooDocument } animal := by
  refine stable_oneOf fun a isBranch b isOther => ?_
  simp only [List.mem_cons, List.not_mem_nil, or_false] at isBranch isOther
  rcases isBranch with rfl | rfl <;> rcases isOther with rfl | rfl
  · exact .refl _
  · exact concurs_of_tagged cat_tagged dog_tagged (by simp)
  · exact concurs_of_tagged dog_tagged cat_tagged (by simp)
  · exact .refl _

theorem region_stable : Stable { document := zooDocument } region := by
  refine stable_oneOf fun a isBranch b isOther => ?_
  have text (branch : Schema) (isBranch : branch ∈ [listed ["North"], listed ["South"]]) :
      ∃ rule, zooDocument.Shapes branch (.string rule) ∧ rule.isDate = false := by
    simp only [List.mem_cons, List.not_mem_nil, or_false] at isBranch
    rcases isBranch with rfl | rfl <;> exact ⟨_, ⟨_, resolve_listed _ _, rfl⟩, rfl⟩
  obtain ⟨rule, shapes, notDate⟩ := text a isBranch
  obtain ⟨other, otherShapes, otherNotDate⟩ := text b isOther
  exact concurs_of_sameKind (.text notDate otherNotDate) shapes otherShapes

theorem zoo_additive : Additive { document := zooDocument } [.reference "Located", park] := by
  refine additive_of_properties [("region", region), ("animals", .array animal)] (by decide)
    fun branch isBranch => ?_
  rcases List.mem_pair.mp isBranch with rfl | rfl
  · exact ⟨_, ⟨located, rfl, rfl⟩, rfl, by simp [Entries.ofList, Entries.extend, Entries.insert]⟩
  · exact ⟨_, ⟨park, rfl, rfl⟩, rfl, by simp [Entries.ofList, Entries.extend, Entries.insert]⟩

theorem zoo_stable (node : Schema) (reaches : zooDocument.Reaches zoo node) :
    Stable { document := zooDocument } node := by
  have reached : node ∈ [zoo, animal, region, park, located, cat, dog, .boolean, .array animal,
      .reference "Located", .reference "Cat", .reference "Dog", listed ["cat"], listed ["dog"],
      listed ["North"], listed ["South"]] := by
    refine Document.mem_of_reaches ?_ ?_ List.mem_cons_self reaches
    · simp [zooDocument, Entries.values]
    · simp [Schema.children, zoo, animal, region, park, located, cat, dog, listed, Schema.object,
        Schema.array, Schema.allOf, Schema.oneOf, Schema.reference, Schema.boolean, Schema.plain,
        Shape.nodes, Additional.nodes, Entries.values, Entries.ofList, Entries.extend,
        Entries.insert]
  simp only [List.mem_cons, List.not_mem_nil, or_false] at reached
  rcases reached with rfl | rfl | rfl | rfl | rfl | rfl | rfl | others
  · exact stable_allOf (.objects zoo_additive)
  · exact animal_stable
  · exact region_stable
  · exact stable_object _ _
  · exact stable_object _ _
  · exact stable_object _ _
  · exact stable_object _ _
  rcases others with rfl | rfl | rfl | rfl | rfl | rfl | rfl | rfl | rfl
  all_goals
    refine stable_of_no_branches rfl (Schema.keyed_of_not_object ?_) ?_ ?_ <;>
      simp [listed, Schema.array, Schema.boolean, Schema.reference, Schema.plain]

theorem givenZoo_accepted :
    (validate { document := zooDocument } { root := "body" } givenZoo zoo .unknown).outcome =
      .ok acceptedZoo := by
  have checked : (checkWithin { document := zooDocument } 3 5 { root := "body" } givenZoo zoo
      .unknown).outcome = .ok acceptedZoo := rfl
  exact validate_outcome_of_checkWithin checked (by simp)

theorem acceptedZoo_accepted_again :
    ((∀ node, zooDocument.Reaches zoo node → Stable { document := zooDocument } node) ∧
      (validate { document := zooDocument } { root := "body" } givenZoo zoo .unknown).outcome =
        .ok acceptedZoo ∧
      (validate { document := zooDocument } { root := "body" } acceptedZoo zoo .unknown).outcome =
        .ok acceptedZoo) ∧
      (validate { document := zooDocument } { root := "body" } givenAnimal animal .array).outcome =
        .ok acceptedAnimal ∧
      ∀ failure, (validate { document := zooDocument } { root := "body" } acceptedAnimal animal
        .array).outcome ≠ .error (.invalid failure) := by
  have checked : (checkWithin { document := zooDocument } 3 3 { root := "body" } givenAnimal animal
      .array).outcome = .ok acceptedAnimal := rfl
  have accepted := validate_outcome_of_checkWithin checked (by simp)
  have isUnion : zooDocument.Shapes animal (.oneOf [.reference "Cat", .reference "Dog"]) :=
    ⟨animal, rfl, rfl⟩
  have toPark : zooDocument.Leads zoo park := ⟨zoo, rfl, .tail _ (.head _)⟩
  have toList : zooDocument.Leads park (.array animal) := ⟨park, rfl, .tail _ (.head _)⟩
  have toAnimal : zooDocument.Leads (.array animal) animal := ⟨.array animal, rfl, .head _⟩
  have zooToAnimal : zooDocument.Reaches zoo animal :=
    (Document.reaches_of_leads toPark).trans
      ((Document.reaches_of_leads toList).trans (Document.reaches_of_leads toAnimal))
  have stable (branch : Schema) (isBranch : branch ∈ [Schema.reference "Cat", .reference "Dog"])
      (node : Schema) (reaches : zooDocument.Reaches branch node) :
      Stable { document := zooDocument } node := by
    have leads : zooDocument.Leads animal branch := ⟨animal, rfl, isBranch⟩
    exact zoo_stable node (zooToAnimal.trans ((Document.reaches_of_leads leads).trans reaches))
  exact ⟨⟨zoo_stable, givenZoo_accepted, (accepted_again givenZoo_accepted).1 zoo_stable⟩, accepted,
    (accepted_again accepted).2 _ isUnion rfl stable⟩

/-- Objects whose only members are objects again, which declare different properties. -/
def fork : Schema :=
  .oneOf [.object [("n", .object [("b", listed ["z"])] [])] [],
    .object [("n", .object [("a", .string)] [])] []]

def textAndFlag : Schema := .allOf [.string, .boolean]

theorem fork_plain (node : Schema) (reaches : Document.Reaches {} fork node) :
    node.default? = none ∧ node.readOnly = false := by
  have reached : node ∈ [fork, .object [("n", .object [("b", listed ["z"])] [])] [],
      .object [("n", .object [("a", .string)] [])] [], .object [("b", listed ["z"])] [],
      .object [("a", .string)] [], listed ["z"], .string] := by
    refine Document.mem_of_reaches ?_ ?_ List.mem_cons_self reaches
    · simp [Entries.values]
    · simp [Schema.children, fork, listed, Schema.object, Schema.oneOf, Schema.string,
        Schema.plain, Shape.nodes, Additional.nodes, Entries.values, Entries.ofList,
        Entries.extend, Entries.insert]
  simp only [List.mem_cons, List.not_mem_nil, or_false] at reached
  rcases reached with rfl | rfl | rfl | rfl | rfl | rfl | rfl <;> exact ⟨rfl, rfl⟩

theorem textAndFlag_plain (node : Schema) (reaches : Document.Reaches {} textAndFlag node) :
    node.default? = none ∧ node.readOnly = false := by
  have reached : node ∈ [textAndFlag, .string, .boolean] := by
    refine Document.mem_of_reaches ?_ ?_ List.mem_cons_self reaches
    · simp [Entries.values]
    · simp [Schema.children, textAndFlag, Schema.allOf, Schema.string, Schema.boolean,
        Schema.plain, Shape.nodes]
  simp only [List.mem_cons, List.not_mem_nil, or_false] at reached
  rcases reached with rfl | rfl | rfl <;> exact ⟨rfl, rfl⟩

/-- Without defaults and read-only nodes a union may still lose a member when its result is checked
again, and an intersection may turn its own result down. -/
theorem results_not_kept :
    ((∀ node, Document.Reaches {} fork node → node.default? = none ∧ node.readOnly = false) ∧
      (validate {} { root := "q" }
        (.object [("n", .object [("a", .string "x"), ("b", .string "y")])]) fork
        .unknown).outcome = .ok (.object [("n", .object [("a", .string "x")])]) ∧
      (validate {} { root := "q" } (.object [("n", .object [("a", .string "x")])]) fork
        .unknown).outcome = .ok (.object [("n", .object [])])) ∧
    (∀ node, Document.Reaches {} textAndFlag node → node.default? = none ∧ node.readOnly = false) ∧
      (validate {} { root := "q" } (.string "true") textAndFlag .unknown).outcome =
        .ok (.bool true) ∧
      ∃ failure, (validate {} { root := "q" } (.bool true) textAndFlag .unknown).outcome =
        .error (.invalid failure) := by
  have first : (checkWithin {} 2 3 { root := "q" }
      (.object [("n", .object [("a", .string "x"), ("b", .string "y")])]) fork .unknown).outcome =
        .ok (.object [("n", .object [("a", .string "x")])]) := rfl
  have second : (checkWithin {} 2 3 { root := "q" } (.object [("n", .object [("a", .string "x")])])
      fork .unknown).outcome = .ok (.object [("n", .object [])]) := rfl
  have accepted : (checkWithin {} 2 1 { root := "q" } (.string "true") textAndFlag
      .unknown).outcome = .ok (.bool true) := rfl
  have refused : (checkWithin {} 2 1 { root := "q" } (.bool true) textAndFlag .unknown).outcome =
      .error (.invalid (.echoing { root := "q" } .notText (.bool true))) := rfl
  exact ⟨⟨fork_plain, validate_outcome_of_checkWithin first (by simp),
      validate_outcome_of_checkWithin second (by simp)⟩,
    textAndFlag_plain, validate_outcome_of_checkWithin accepted (by simp),
    _, validate_outcome_of_checkWithin refused (by simp)⟩

end Validator

end ApiContract

import ApiContract.Value.Path
import Mathlib.Data.List.MinMax
import Mathlib.Order.Nat

/-!
Places inside values.

`Member` says what stands directly inside a value. `step?` reads the first entry of a key, so the
two agree on the values that a decoder can produce, in which no object repeats a key (`Distinct`).
-/

namespace ApiContract

namespace Path

def below (p : Path) (steps : List Segment) : Path := { p with segments := p.segments ++ steps }

@[simp] theorem below_nil (p : Path) : p.below [] = p := by
  simp [below]

@[simp] theorem child_below (p : Path) (s : Segment) (steps : List Segment) :
    (p.child s).below steps = p.below (s :: steps) := by
  simp [below, child]

@[simp] theorem root_below (p : Path) (steps : List Segment) : (p.below steps).root = p.root :=
  rfl

theorem text_eq_intercalate (p : Path) :
    p.text = ".".intercalate (p.root :: p.segments.map Segment.text) := by
  obtain ⟨root, steps⟩ := p
  induction steps generalizing root with
  | nil => simp [text]
  | cons s steps ih =>
    rw [List.map_cons, String.intercalate_cons_cons, ← String.intercalate_cons_append]
    exact ih _

end Path

namespace Value

/-- What stands at a step directly inside a value. -/
inductive Member : Value → Segment → Value → Prop
  | item {items i v} : items[i]? = some v → Member (.array items) (.index i) v
  | entry {members name v} : (name, v) ∈ members → Member (.object members) (.key name) v

theorem exists_member_iff {v w : Value} : (∃ s, v.Member s w) ↔ w ∈ v.children := by
  constructor
  · rintro ⟨s, item | entry⟩
    · exact List.mem_of_getElem? item
    · exact List.mem_map.mpr ⟨_, entry, rfl⟩
  · intro membership
    cases v with
    | array items =>
      obtain ⟨i, found⟩ := List.getElem?_of_mem membership
      exact ⟨.index i, .item found⟩
    | object members =>
      obtain ⟨⟨name, v⟩, entry, rfl⟩ := List.mem_map.mp membership
      exact ⟨.key name, .entry entry⟩
    | _ => simp [children] at membership

theorem depth_le_iff {v : Value} {n : Nat} :
    v.depth ≤ n ↔ ∀ s w, v.Member s w → w.depth < n := by
  rw [depth]
  constructor
  · intro bound s w member
    refine Nat.lt_of_lt_of_le (List.le_max_of_le ?_ (Nat.le_refl _)) bound
    have isChild : w ∈ v.children := exists_member_iff.mp ⟨s, member⟩
    exact List.mem_map.mpr ⟨⟨w, isChild⟩, List.mem_attach _ _, rfl⟩
  · intro bound
    refine List.max_le_of_forall_le _ _ fun m membership => ?_
    obtain ⟨⟨w, isChild⟩, -, rfl⟩ := List.mem_map.mp membership
    obtain ⟨s, member⟩ := exists_member_iff.mpr isChild
    exact bound s w member

theorem Member.depth_lt {v w : Value} {s : Segment} (member : v.Member s w) :
    w.depth < v.depth :=
  depth_le_iff.mp (Nat.le_refl v.depth) s w member

mutual

/-- Whether no object inside the value repeats a key. -/
def distinct : Value → Bool
  | array items => distinctItems items
  | object members => decide (Entries.Distinct members) && distinctMembers members
  | _ => true

def distinctItems : List Value → Bool
  | [] => true
  | v :: vs => distinct v && distinctItems vs

def distinctMembers : List (String × Value) → Bool
  | [] => true
  | (_, v) :: es => distinct v && distinctMembers es

end

/-- No object inside the value repeats a key. -/
def Distinct (v : Value) : Prop := v.distinct = true

instance (v : Value) : Decidable v.Distinct := inferInstanceAs (Decidable (v.distinct = true))

theorem distinctItems_eq_true_iff {items : List Value} :
    distinctItems items = true ↔ ∀ v ∈ items, v.Distinct := by
  induction items with
  | nil => simp [distinctItems]
  | cons v vs ih => simp [distinctItems, Distinct, ih]

theorem distinctMembers_eq_true_iff {members : List (String × Value)} :
    distinctMembers members = true ↔ ∀ e ∈ members, e.2.Distinct := by
  induction members with
  | nil => simp [distinctMembers]
  | cons e es ih => simp [distinctMembers, Distinct, ih]

theorem distinct_array_iff {items : List Value} :
    (array items).Distinct ↔ ∀ v ∈ items, v.Distinct := by
  unfold Distinct
  rw [distinct]
  exact distinctItems_eq_true_iff

theorem distinct_object_iff {members : List (String × Value)} :
    (object members).Distinct ↔ Entries.Distinct members ∧ ∀ e ∈ members, e.2.Distinct := by
  unfold Distinct
  rw [distinct, Bool.and_eq_true, decide_eq_true_eq, distinctMembers_eq_true_iff]
  rfl

theorem Distinct.of_member {v w : Value} {s : Segment} (distinct : v.Distinct)
    (member : v.Member s w) : w.Distinct := by
  cases member with
  | item found => exact distinct_array_iff.mp distinct w (List.mem_of_getElem? found)
  | entry membership => exact (distinct_object_iff.mp distinct).2 _ membership

theorem step?_eq_some_of_member {v w : Value} {s : Segment} (distinct : v.Distinct)
    (member : v.Member s w) : v.step? s = some w := by
  cases member with
  | item found => exact found
  | entry membership =>
    exact Entries.get?_eq_some_of_mem (distinct_object_iff.mp distinct).1 membership

/-- What stands at the end of a chain of steps into a value. -/
inductive Holds : Value → List Segment → Value → Prop
  | here {v} : Holds v [] v
  | deeper {v inner w s steps} : v.Member s inner → Holds inner steps w → Holds v (s :: steps) w

end Value

end ApiContract

import ApiContract.Proofs.Report
import ApiContract.Proofs.Value.Place
import Mathlib.Data.List.Nodup

/-!
Values up to the order of keys.

Two lists of entries are `Alike` if under each key they hold related values, in the same order.
Whatever is made of entries key by key keeps this: reading a key, leaving keys out, extending by
other entries. Where keys do not repeat, it says that the lists have the same keys in any order.

`Reordered` values differ in the order of object keys only, at any depth.
-/

namespace ApiContract

namespace Entries

variable {α β : Type} {es fs more others : Entries α} {key : String}

/-- The values under a key, in order. -/
def under (es : Entries α) (key : String) : List α :=
  (es.filter fun e => e.1 = key).map Prod.snd

@[simp] theorem under_nil (key : String) : under ([] : Entries α) key = [] := rfl

theorem under_cons (e : String × α) (es : Entries α) (key : String) :
    under (e :: es) key = if e.1 = key then e.2 :: under es key else under es key := by
  by_cases same : e.1 = key <;> simp [under, same]

theorem under_append (es fs : Entries α) (key : String) :
    under (es ++ fs) key = under es key ++ under fs key := by
  simp [under]

theorem mem_under_iff {a : α} : a ∈ under es key ↔ (key, a) ∈ es := by
  simp [under]

theorem get?_eq_head? (es : Entries α) (key : String) : get? es key = (under es key).head? := by
  induction es with
  | nil => rfl
  | cons e es ih =>
    rw [under_cons, get?, ih]
    split <;> rfl

theorem under_filter_keys (es : Entries α) (keep : String → Bool) (key : String) :
    under (es.filter fun e => keep e.1) key = if keep key then under es key else [] := by
  induction es with
  | nil => simp
  | cons e es ih =>
    by_cases same : e.1 = key
    · subst same
      by_cases kept : keep e.1 = true
      · simp_all [under_cons]
      · simp_all
    · by_cases kept : keep e.1 = true <;> simp_all [under_cons]

theorem count_keys (es : Entries α) (key : String) :
    (keys es).count key = (under es key).length := by
  induction es with
  | nil => rfl
  | cons e es ih =>
    rw [keys_cons, List.count_cons, under_cons, ih]
    by_cases same : e.1 = key <;> simp [same]

theorem under_insert (es : Entries α) (name : String) (a : α) (key : String) :
    under (insert es name a) key =
      if name = key then a :: (under es key).tail else under es key := by
  induction es with
  | nil => simp [insert, under_cons]
  | cons e es ih =>
    by_cases found : e.1 = name
    · subst found
      by_cases same : e.1 = key <;> simp [insert, under_cons, same]
    · by_cases same : e.1 = key
      · subst same
        simp [insert, found, under_cons, ih, Ne.symm found]
      · simp [insert, found, under_cons, ih, same]

theorem under_extend (es more : Entries α) (key : String) :
    under (extend es more) key =
      (under more key).foldl (fun values a => a :: values.tail) (under es key) := by
  induction more generalizing es with
  | nil => rfl
  | cons e more ih =>
    have later : under (extend (insert es e.1 e.2) more) key = _ := ih _
    rw [under_insert] at later
    rw [under_cons]
    by_cases same : e.1 = key
    · simpa [extend, same] using later
    · simpa [extend, same] using later

theorem under_eq_of_get? (distinct : Distinct es) (key : String) :
    under es key = (get? es key).toList := by
  have once : (under es key).length ≤ 1 := by
    rw [← count_keys]
    exact List.nodup_iff_count_le_one.mp distinct key
  rw [get?_eq_head?]
  match under es key, once with
  | [], _ => rfl
  | [_], _ => rfl

theorem forall₂_under {R : String → α → β → Prop} {es : Entries α} {fs : Entries β}
    (related : List.Forall₂ (fun e f => f.1 = e.1 ∧ R e.1 e.2 f.2) es fs) (key : String) :
    List.Forall₂ (R key) (under es key) (under fs key) := by
  induction related with
  | nil => exact .nil
  | @cons e f es fs first _ ih =>
    obtain ⟨sameKey, related⟩ := first
    rw [under_cons, under_cons, sameKey]
    by_cases same : e.1 = key
    · rw [if_pos same, if_pos same, ← same]
      exact .cons related (same ▸ ih)
    · rwa [if_neg same, if_neg same]

/-- The same keys, with related values under each of them, whatever the order of the keys. -/
def Alike (R : α → β → Prop) (es : Entries α) (fs : Entries β) : Prop :=
  ∀ key, List.Forall₂ R (under es key) (under fs key)

namespace Alike

variable {R : α → β → Prop} {es more : Entries α} {fs others : Entries β}

theorem refl {R : α → α → Prop} (each : ∀ a, R a a) (es : Entries α) : Alike R es es :=
  fun _ => List.forall₂_same.mpr fun a _ => each a

theorem of_forall₂ (related : List.Forall₂ (fun e f => f.1 = e.1 ∧ R e.2 f.2) es fs) :
    Alike R es fs :=
  forall₂_under related

theorem perm_keys (alike : Alike R es fs) : (keys es).Perm (keys fs) := by
  rw [List.perm_iff_count]
  intro key
  rw [count_keys, count_keys]
  exact (alike key).length_eq

theorem length_eq (alike : Alike R es fs) : es.length = fs.length := by
  simpa [keys] using alike.perm_keys.length_eq

theorem get? (alike : Alike R es fs) (key : String) :
    Option.Rel R (Entries.get? es key) (Entries.get? fs key) := by
  have values := alike key
  rw [get?_eq_head?, get?_eq_head?]
  generalize under es key = as, under fs key = bs at values ⊢
  cases values with
  | nil => exact .none
  | cons first _ => exact .some first

theorem append (alike : Alike R es fs) (later : Alike R more others) :
    Alike R (es ++ more) (fs ++ others) := by
  intro key
  rw [under_append, under_append]
  exact List.rel_append (alike key) (later key)

theorem filter_keys (alike : Alike R es fs) (keep : String → Bool) :
    Alike R (es.filter fun e => keep e.1) (fs.filter fun e => keep e.1) := by
  intro key
  rw [under_filter_keys, under_filter_keys]
  split
  · exact alike key
  · exact .nil

theorem extend (alike : Alike R es fs) (later : Alike R more others) :
    Alike R (Entries.extend es more) (Entries.extend fs others) := by
  intro key
  have values := alike key
  have added := later key
  rw [under_extend, under_extend]
  generalize under es key = as, under fs key = bs at values ⊢
  generalize under more key = cs, under others key = ds at added ⊢
  induction added generalizing as bs with
  | nil => exact values
  | cons next _ ih =>
    refine ih _ _ (.cons next ?_)
    cases values with
    | nil => exact .nil
    | cons _ rest => exact rest

theorem exists_right (alike : Alike R es fs) {e : String × α} (isEntry : e ∈ es) :
    ∃ f ∈ fs, f.1 = e.1 ∧ R e.2 f.2 := by
  obtain ⟨b, isValue, related⟩ :=
    Outcome.exists_mem_right_of_forall₂ (alike e.1) (mem_under_iff.mpr isEntry)
  exact ⟨(e.1, b), mem_under_iff.mp isValue, rfl, related⟩

theorem exists_left (alike : Alike R es fs) {f : String × β} (isEntry : f ∈ fs) :
    ∃ e ∈ es, f.1 = e.1 ∧ R e.2 f.2 := by
  obtain ⟨a, isValue, related⟩ :=
    Outcome.exists_mem_left_of_forall₂ (alike f.1) (mem_under_iff.mpr isEntry)
  exact ⟨(f.1, a), mem_under_iff.mp isValue, rfl, related⟩

end Alike

/-- Where keys do not repeat, alike entries are the same keys in any order, with related values. -/
theorem alike_iff {R : α → β → Prop} {es : Entries α} {fs : Entries β} (distinct : Distinct es)
    (distinct' : Distinct fs) :
    Alike R es fs ↔ (keys es).Perm (keys fs) ∧
      ∀ key a b, (key, a) ∈ es → (key, b) ∈ fs → R a b := by
  constructor
  · refine fun alike => ⟨alike.perm_keys, fun key a b isEntry isEntry' => ?_⟩
    have related := alike.get? key
    rw [get?_eq_some_of_mem distinct isEntry, get?_eq_some_of_mem distinct' isEntry'] at related
    cases related with
    | some related => exact related
  · rintro ⟨sameKeys, each⟩ key
    have sameKey := sameKeys.mem_iff (a := key)
    rw [mem_keys_iff, mem_keys_iff] at sameKey
    rw [under_eq_of_get? distinct, under_eq_of_get? distinct']
    cases found : get? es key with
    | none =>
      have absent : get? fs key = none := by simpa [found] using sameKey
      simp [absent]
    | some a =>
      obtain ⟨b, found'⟩ : ∃ b, get? fs key = some b := by
        simpa [found, Option.isSome_iff_exists] using sameKey
      have related := each key a b (mem_of_get?_eq_some found) (mem_of_get?_eq_some found')
      simpa [found'] using related

end Entries

namespace Value

/-- The same value but for the order of object keys, at any depth. -/
inductive Reordered : Value → Value → Prop
  | refl {v} : Reordered v v
  | array {items others} : List.Forall₂ Reordered items others →
      Reordered (array items) (array others)
  /-- Under each key the values are the same, but for the order of keys inside them. -/
  | object {members others : List (String × Value)} :
      (∀ key, List.Forall₂ Reordered (Entries.under members key) (Entries.under others key)) →
      Reordered (object members) (object others)

variable {v w : Value} {members others : List (String × Value)}

theorem Reordered.isNull_eq (reordered : v.Reordered w) : w.isNull = v.isNull := by
  cases reordered <;> rfl

theorem Reordered.object? (reordered : v.Reordered w) :
    Option.Rel (Entries.Alike Reordered) v.object? w.object? := by
  cases reordered with
  | refl =>
    cases v.object? with
    | none => exact .none
    | some members => exact .some (.refl (fun _ => .refl) members)
  | array => exact .none
  | object alike => exact .some alike

/-- Where keys do not repeat, objects are reordered that have the same keys with reordered
values. -/
theorem reordered_iff_of_distinct (distinct : Entries.Distinct members)
    (distinct' : Entries.Distinct others) :
    (object members).Reordered (object others) ↔
      (Entries.keys members).Perm (Entries.keys others) ∧
        ∀ key v w, (key, v) ∈ members → (key, w) ∈ others → v.Reordered w := by
  rw [← Entries.alike_iff distinct distinct']
  constructor
  · intro reordered
    cases reordered.object? with
    | some alike => exact alike
  · exact .object

theorem reordered_pair {v' w' : Value} {k l : String} (different : k ≠ l)
    (first : v.Reordered v') (second : w.Reordered w') :
    (object [(k, v), (l, w)]).Reordered (object [(l, w'), (k, v')]) := by
  have distinct : Entries.Distinct [(k, v), (l, w)] := by simpa [Entries.Distinct]
  have distinct' : Entries.Distinct [(l, w'), (k, v')] := by
    simpa [Entries.Distinct] using different.symm
  refine (reordered_iff_of_distinct distinct distinct').mpr ⟨.swap _ _ _, ?_⟩
  intro key a b isEntry isEntry'
  have given : (key = k ∧ a = v) ∨ (key = l ∧ a = w) := by simpa using isEntry
  have given' : (key = l ∧ b = w') ∨ (key = k ∧ b = v') := by simpa using isEntry'
  rcases given with ⟨rfl, rfl⟩ | ⟨rfl, rfl⟩
  · obtain ⟨-, rfl⟩ := given'.resolve_left fun other => different other.1
    exact first
  · obtain ⟨-, rfl⟩ := given'.resolve_right fun other => different other.1.symm
    exact second

end Value

end ApiContract

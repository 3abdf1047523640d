import ApiContract.Entries
import ApiContract.Json.Basic
import Mathlib.Data.List.Perm.Basic
import Mathlib.Data.List.Nodup

/-!
Entries whose keys are distinct.

A lookup finds a member wherever it stands, so it does not see the order of the entries, not even
where the removal of a key puts the last entry in its place.
-/

namespace ApiContract

namespace Entries

variable {α : Type} {es others : Entries α} {key other : String} {a : α}

theorem get?_eq_some_iff (distinct : Distinct es) : get? es key = some a ↔ (key, a) ∈ es :=
  ⟨mem_of_get?_eq_some, get?_eq_some_of_mem distinct⟩

theorem Distinct.of_perm (perm : es.Perm others) (distinct : Distinct es) : Distinct others :=
  (perm.map Prod.fst).nodup_iff.mp distinct

/-- Where keys do not repeat, the order of entries does not matter to reading. -/
theorem get?_perm (perm : es.Perm others) (distinct : Distinct es) (key : String) :
    get? es key = get? others key := by
  ext a
  rw [get?_eq_some_iff distinct, get?_eq_some_iff (distinct.of_perm perm), perm.mem_iff]

theorem swapRemove_perm (distinct : Distinct es) (key : String) :
    (swapRemove es key).Perm (es.filter fun e => e.1 ≠ key) := by
  induction es with
  | nil => exact .refl _
  | cons e es ih =>
    obtain ⟨k, a⟩ := e
    obtain ⟨fresh, others⟩ := List.nodup_cons.mp distinct
    by_cases same : k = key
    · subst same
      have kept : es.filter (fun e => e.1 ≠ k) = es := by
        rw [List.filter_eq_self]
        intro e isEntry
        have other : e.1 ≠ k := fun same => fresh (List.mem_map.mpr ⟨e, isEntry, same⟩)
        simpa using other
      rw [List.filter_cons_of_neg (by simp), kept]
      cases last : es.getLast? with
      | none => simp [swapRemove, List.getLast?_eq_none_iff.mp last]
      | some e =>
        obtain ⟨before, rfl⟩ := List.getLast?_eq_some_iff.mp last
        simpa [swapRemove] using (List.perm_append_singleton e before).symm
    · rw [List.filter_cons_of_pos (by simpa using same)]
      simpa [swapRemove, same] using (ih others).cons (k, a)

theorem Distinct.swapRemove (distinct : Distinct es) (key : String) :
    Distinct (Entries.swapRemove es key) := by
  refine Distinct.of_perm (swapRemove_perm distinct key).symm ?_
  exact distinct.sublist (List.filter_sublist.map Prod.fst)

theorem get?_swapRemove_self (distinct : Distinct es) (key : String) :
    get? (swapRemove es key) key = none := by
  apply get?_eq_none
  intro e isEntry
  simpa using (List.mem_filter.mp ((swapRemove_perm distinct key).mem_iff.mp isEntry)).2

theorem get?_swapRemove_of_ne (distinct : Distinct es) (ne : key ≠ other) :
    get? (swapRemove es key) other = get? es other := by
  rw [get?_perm (swapRemove_perm distinct key) (distinct.swapRemove key)]
  exact get?_filter_keys es (· ≠ key) (by simpa using ne.symm)

def insertNew (es : Entries α) (key : String) (a : α) : Entries α :=
  if contains es key then es else insert es key a

theorem Distinct.insertNew (distinct : Distinct es) (key : String) (a : α) :
    Distinct (Entries.insertNew es key a) := by
  unfold Entries.insertNew
  split
  · exact distinct
  · exact distinct.insert key a

theorem get?_insertNew_self (es : Entries α) (key : String) (a : α) :
    get? (insertNew es key a) key = some ((get? es key).getD a) := by
  unfold insertNew contains
  cases found : get? es key with
  | some b => simpa using found
  | none => simpa using get?_insert_self es key a

theorem get?_insertNew_of_ne (es : Entries α) (a : α) (ne : key ≠ other) :
    get? (insertNew es key a) other = get? es other := by
  unfold insertNew
  split
  · rfl
  · exact get?_insert_of_ne es a ne

theorem insert_of_not_mem (fresh : key ∉ keys es) (a : α) : insert es key a = es ++ [(key, a)] := by
  induction es with
  | nil => rfl
  | cons e es ih =>
    obtain ⟨k, b⟩ := e
    obtain ⟨other, later⟩ := not_or.mp (mt List.mem_cons.mpr fresh)
    rw [insert, if_neg (Ne.symm other), ih later, List.cons_append]

end Entries

end ApiContract

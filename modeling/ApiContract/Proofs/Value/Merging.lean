import ApiContract.Proofs.Value.Order

/-!
Entries merged in order.

Extending entries by others leaves a key that they know in its place and gives it the later value.
So lists of entries that are merged one after the other give the keys of all of them, each where it
occurs first, with the value that the last list has for it (`Merges`).
-/

namespace ApiContract.Entries

variable {α : Type} {es more : Entries α} {lists rest : List (Entries α)} {key : String}

/-- The later list has the say on the keys that it has. -/
theorem get?_extend (distinct : Distinct more) (es : Entries α) (key : String) :
    get? (extend es more) key = (get? more key).or (get? es key) := by
  rw [get?_eq_head?, under_extend, under_eq_of_get? distinct, get?_eq_head? es]
  cases get? more key <;> rfl

theorem keys_extend (es more : Entries α) :
    keys (extend es more) = keys es ++ ((keys more).removeAll (keys es)).eraseDups := by
  induction more generalizing es with
  | nil => simp [extend]
  | cons e more ih =>
    have later : keys (extend (insert es e.1 e.2) more) = _ := ih _
    change keys (extend (insert es e.1 e.2) more) = _
    rw [later, keys_insert, keys_cons, List.cons_removeAll]
    by_cases known : e.1 ∈ keys es
    · simp [known]
    · have others : (keys more).removeAll (keys es ++ [e.1]) =
          ((keys more).removeAll (keys es)).filter fun key => !key == e.1 := by
        rw [List.removeAll, List.removeAll, List.filter_filter]
        refine List.filter_congr fun key _ => ?_
        by_cases same : key = e.1 <;> simp [same]
      simp [known, others, List.eraseDups_cons]

/-- The keys are those of all lists, in the order in which they occur first, and under each key
stands the value of the last list that has it. -/
structure Merges (lists : List (Entries α)) (merged : Entries α) : Prop where
  keys_eq : keys merged = (lists.flatMap keys).eraseDups
  get?_eq : ∀ key, get? merged key = (lists.filterMap fun es => get? es key).getLast?

theorem eraseDups_eq_self {names : List String} (distinct : names.Nodup) :
    names.eraseDups = names := by
  induction names with
  | nil => rfl
  | cons name names ih =>
    obtain ⟨fresh, distinct⟩ := List.nodup_cons.mp distinct
    have others : names.filter (fun other => !other == name) = names := by
      refine List.filter_eq_self.mpr fun other isName => ?_
      have different : other ≠ name := fun same => fresh (same ▸ isName)
      simpa using different
    rw [List.eraseDups_cons, others, ih distinct]

theorem merges_singleton (distinct : Distinct es) : Merges [es] es where
  keys_eq := by simpa using (eraseDups_eq_self distinct).symm
  get?_eq key := by cases found : get? es key <;> simp [found]

theorem Merges.concat (merges : Merges lists es) (distinct : Distinct more) :
    Merges (lists ++ [more]) (extend es more) where
  keys_eq := by
    have sameKeys : (keys more).removeAll (keys es) =
        (keys more).removeAll (lists.flatMap keys) := by
      rw [merges.keys_eq]
      simp [List.removeAll]
    rw [keys_extend, sameKeys, merges.keys_eq, List.flatMap_append, List.flatMap_singleton,
      List.eraseDups_append]
  get?_eq key := by
    rw [get?_extend distinct, merges.get?_eq, List.filterMap_append, List.getLast?_append]
    cases found : get? more key <;> simp [found]

/-- Extending by list after list merges all of them. -/
theorem merges_foldl (merges : Merges lists es) (distinct : ∀ more ∈ rest, Distinct more) :
    Merges (lists ++ rest) (rest.foldl extend es) := by
  induction rest generalizing lists es with
  | nil => simpa using merges
  | cons more rest ih =>
    obtain ⟨ofMore, ofRest⟩ := List.forall_mem_cons.mp distinct
    have further := ih (merges.concat ofMore) ofRest
    rwa [List.append_assoc, List.singleton_append] at further

end ApiContract.Entries

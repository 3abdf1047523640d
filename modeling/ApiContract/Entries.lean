/-!
Entries of an object: pairs of a key and a value in order of insertion.

A list built by `insert` holds each key once; `Entries.Distinct` says so. Reading takes the first
entry of a key, so for such a list order matters to `toList`-like views only.
-/

namespace ApiContract

/-- Keyed values in order of insertion. -/
abbrev Entries (α : Type) := List (String × α)

namespace Entries

variable {α β : Type}

def keys (es : Entries α) : List String := es.map Prod.fst

def values (es : Entries α) : List α := es.map Prod.snd

/-- Every key stands once. -/
def Distinct (es : Entries α) : Prop := (keys es).Nodup

instance (es : Entries α) : Decidable (Distinct es) :=
  inferInstanceAs (Decidable (keys es).Nodup)

def get? : Entries α → String → Option α
  | [], _ => none
  | (k, a) :: rest, key => if k = key then some a else get? rest key

def contains (es : Entries α) (key : String) : Bool := (get? es key).isSome

/-- A known key keeps its place and takes the new value; a new key goes to the end. -/
def insert : Entries α → String → α → Entries α
  | [], key, a => [(key, a)]
  | (k, b) :: rest, key, a =>
    if k = key then (k, a) :: rest else (k, b) :: insert rest key a

def extend (es more : Entries α) : Entries α :=
  more.foldl (fun acc e => insert acc e.1 e.2) es

/-- Entries with repetitions merged: first place, last value. -/
def ofList (pairs : List (String × α)) : Entries α := extend [] pairs

/-- Takes a key out; the last entry moves to the place that became free. -/
def swapRemove (es : Entries α) (key : String) : Entries α :=
  match es with
  | [] => []
  | (k, a) :: rest =>
    if k = key then
      match rest.getLast? with
      | none => []
      | some last => last :: rest.dropLast
    else (k, a) :: swapRemove rest key

def mapValues (f : α → β) (es : Entries α) : Entries β := es.map fun e => (e.1, f e.2)

@[simp] theorem get?_nil (key : String) : get? ([] : Entries α) key = none := rfl

@[simp] theorem keys_nil : keys ([] : Entries α) = [] := rfl

@[simp] theorem keys_cons (e : String × α) (es : Entries α) :
    keys (e :: es) = e.1 :: keys es := rfl

@[simp] theorem keys_mapValues (f : α → β) (es : Entries α) :
    keys (mapValues f es) = keys es := by
  simp [keys, mapValues, Function.comp_def]

theorem get?_insert_self (es : Entries α) (key : String) (a : α) :
    get? (insert es key a) key = some a := by
  induction es with
  | nil => simp [insert, get?]
  | cons e es ih =>
    obtain ⟨k, b⟩ := e
    by_cases h : k = key <;> simp [insert, get?, h, ih]

theorem get?_insert_of_ne (es : Entries α) {key other : String} (a : α) (h : key ≠ other) :
    get? (insert es key a) other = get? es other := by
  induction es with
  | nil => simp [insert, get?, h]
  | cons e es ih =>
    obtain ⟨k, b⟩ := e
    by_cases hk : k = key
    · subst hk; simp [insert, get?, h]
    · by_cases ho : k = other
      · subst ho; simp [insert, get?, hk]
      · simp [insert, get?, hk, ho, ih]

theorem mem_keys_iff {es : Entries α} {key : String} :
    key ∈ keys es ↔ (get? es key).isSome := by
  induction es with
  | nil => simp
  | cons e es ih =>
    obtain ⟨k, b⟩ := e
    by_cases h : k = key
    · simp [get?, h]
    · simp [get?, h, ih, Ne.symm h]

theorem get?_eq_none {es : Entries α} {key : String} (absent : ∀ e ∈ es, e.1 ≠ key) :
    get? es key = none := by
  rw [← Option.not_isSome_iff_eq_none, ← mem_keys_iff]
  intro membership
  obtain ⟨e, isEntry, same⟩ := List.mem_map.mp membership
  exact absent e isEntry same

theorem mem_of_get?_eq_some {es : Entries α} {key : String} {a : α}
    (found : get? es key = some a) : (key, a) ∈ es := by
  induction es with
  | nil => simp at found
  | cons e es ih =>
    obtain ⟨k, b⟩ := e
    by_cases same : k = key
    · obtain ⟨rfl, rfl⟩ : k = key ∧ b = a := ⟨same, by simpa [get?, same] using found⟩
      exact List.mem_cons_self
    · exact List.mem_cons_of_mem _ (ih (by simpa [get?, same] using found))

theorem get?_eq_some_of_mem {es : Entries α} {key : String} {a : α} (distinct : Distinct es)
    (membership : (key, a) ∈ es) : get? es key = some a := by
  induction es with
  | nil => simp at membership
  | cons e es ih =>
    obtain ⟨k, b⟩ := e
    obtain ⟨fresh, others⟩ := List.nodup_cons.mp distinct
    rcases List.mem_cons.mp membership with first | later
    · obtain ⟨rfl, rfl⟩ := Prod.mk.inj first
      simp [get?]
    · have other : k ≠ key := by
        rintro rfl
        exact fresh (List.mem_map.mpr ⟨_, later, rfl⟩)
      simpa [get?, other] using ih others later

theorem get?_filter_keys (es : Entries α) (keep : String → Bool) {key : String}
    (kept : keep key = true) : get? (es.filter fun e => keep e.1) key = get? es key := by
  induction es with
  | nil => rfl
  | cons e es ih =>
    obtain ⟨k, b⟩ := e
    by_cases same : k = key
    · subst same
      simp [get?, kept]
    · by_cases keepsFirst : keep k = true
      · simpa [get?, keepsFirst, same] using ih
      · simpa [get?, keepsFirst, same] using ih

theorem get?_mapKeyed {β : Type} (f : String → α → β) (es : Entries α) (key : String) :
    get? (es.map fun e => (e.1, f e.1 e.2)) key = (get? es key).map (f key) := by
  induction es with
  | nil => rfl
  | cons e es ih =>
    obtain ⟨k, a⟩ := e
    by_cases same : k = key
    · subst same
      simp [get?]
    · simpa [get?, same] using ih

theorem keys_mapKeyed {β : Type} (f : String → α → β) (es : Entries α) :
    keys (es.map fun e => (e.1, f e.1 e.2)) = keys es := by
  simp [keys, Function.comp_def]

theorem keys_insert (es : Entries α) (key : String) (a : α) :
    keys (insert es key a) = if key ∈ keys es then keys es else keys es ++ [key] := by
  induction es with
  | nil => simp [insert]
  | cons e es ih =>
    obtain ⟨k, b⟩ := e
    by_cases h : k = key
    · simp [insert, h]
    · by_cases hm : key ∈ keys es <;> simp [insert, h, ih, hm, Ne.symm h]

theorem Distinct.insert {es : Entries α} (h : Distinct es) (key : String) (a : α) :
    Distinct (Entries.insert es key a) := by
  unfold Distinct at *
  rw [keys_insert]
  split
  · exact h
  · next hm => simp [List.nodup_append, h]; intro k hk e; exact hm (e ▸ hk)

theorem mem_of_mem_insert {es : Entries α} {key : String} {a : α} {e : String × α}
    (membership : e ∈ insert es key a) : e = (key, a) ∨ e ∈ es := by
  induction es with
  | nil => exact .inl (List.mem_singleton.mp membership)
  | cons first es ih =>
    obtain ⟨k, b⟩ := first
    by_cases same : k = key
    · simp only [insert, same, if_true] at membership
      rcases List.mem_cons.mp membership with isNew | later
      · exact .inl isNew
      · exact .inr (List.mem_cons_of_mem _ later)
    · simp only [insert, same, if_false] at membership
      rcases List.mem_cons.mp membership with isFirst | later
      · exact .inr (isFirst ▸ List.mem_cons_self)
      · exact (ih later).imp_right (List.mem_cons_of_mem _)

theorem mem_of_mem_extend {es more : Entries α} {e : String × α}
    (membership : e ∈ extend es more) : e ∈ es ∨ e ∈ more := by
  induction more generalizing es with
  | nil => exact .inl membership
  | cons next more ih =>
    rcases ih membership with inserted | later
    · rcases mem_of_mem_insert inserted with isNew | isOld
      · exact .inr (isNew ▸ List.mem_cons_self)
      · exact .inl isOld
    · exact .inr (List.mem_cons_of_mem next later)

theorem mem_keys_insert {es : Entries α} {key other : String} {a : α} :
    other ∈ keys (insert es key a) ↔ other ∈ keys es ∨ other = key := by
  rw [keys_insert]
  by_cases known : key ∈ keys es
  · rw [if_pos known]
    constructor
    · exact .inl
    · rintro (isOld | rfl)
      · exact isOld
      · exact known
  · rw [if_neg known]
    simp

theorem mem_keys_extend {es more : Entries α} {key : String} :
    key ∈ keys (extend es more) ↔ key ∈ keys es ∨ key ∈ keys more := by
  induction more generalizing es with
  | nil => simp [extend]
  | cons next more ih =>
    have later : key ∈ keys (extend (insert es next.1 next.2) more) ↔ _ := ih
    rw [mem_keys_insert, or_assoc] at later
    simpa [extend] using later

theorem Distinct.extend {es : Entries α} (h : Distinct es) (more : Entries α) :
    Distinct (Entries.extend es more) := by
  unfold Entries.extend
  induction more generalizing es with
  | nil => exact h
  | cons e more ih => exact ih (h.insert e.1 e.2)

theorem distinct_nil : Distinct ([] : Entries α) := List.nodup_nil

theorem distinct_ofList (pairs : List (String × α)) : Distinct (ofList pairs) :=
  distinct_nil.extend pairs

end Entries

end ApiContract

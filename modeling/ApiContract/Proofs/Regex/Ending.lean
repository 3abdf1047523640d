import ApiContract.Regex.Classes
import Mathlib.Data.List.TakeWhile

/-!
Reading a text with the ending of an anchored pattern behind it.

A reader that succeeds on a text reads the same from the text with the ending behind it, and one
that fails on the first mostly fails on the second. In verbose mode a comment may take the ending
in; then both texts are used up.
-/

namespace ApiContract.Regex

open Unicode

/-- What stands behind the source in an anchored pattern. -/
def ending : List Char := [')', '$']

/-- A rest of a text, and what is left there with the ending behind the text: the same rest with the
ending behind it, or nothing, where a comment takes the ending in. -/
inductive Behind : List Char → List Char → Prop
  | shown (rest : List Char) : Behind rest (rest ++ ending)
  | hidden : Behind [] []

/-- The results of a reader with and without the ending. Where it fails without, it fails with it or
gets stuck. -/
inductive Follows {α β : Type} (Agree : α → β → Prop) (Stuck : β → Prop) :
    Option α → Option β → Prop
  | some {a : α} {b : β} : Agree a b → Follows Agree Stuck (some a) (some b)
  | none : Follows Agree Stuck none none
  | stuck {b : β} : Stuck b → Follows Agree Stuck none (some b)

/-- The same is read, and what is left is shorter than `bound`. -/
structure Agree {α : Type} (bound : Nat) (x y : α × List Char) : Prop where
  same : x.1 = y.1
  behind : Behind x.2 y.2
  shorter : x.2.length < bound

def Never {α : Type} (_ : α) : Prop := False

section

variable {α β γ δ : Type} {R : α → β → Prop} {S : γ → δ → Prop} {Stuck : β → Prop} {T : δ → Prop}
  {a : Option α} {b : Option β}

theorem Follows.bind {f : α → Option γ} {g : β → Option δ} (follows : Follows R Stuck a b)
    (later : ∀ x y, R x y → Follows S T (f x) (g y))
    (stuck : ∀ y, Stuck y → ∀ z, g y = Option.some z → T z) :
    Follows S T (a.bind f) (b.bind g) := by
  cases follows with
  | some agree => exact later _ _ agree
  | none => exact .none
  | @stuck y isStuck =>
    rw [Option.bind_none, Option.bind_some]
    cases result : g y with
    | none => exact .none
    | some z => exact .stuck (stuck y isStuck z result)

theorem Follows.map {f : α → γ} {g : β → δ} (follows : Follows R Stuck a b)
    (later : ∀ x y, R x y → S (f x) (g y)) (stuck : ∀ y, Stuck y → T (g y)) :
    Follows S T (a.map f) (b.map g) := by
  cases follows with
  | some agree => exact .some (later _ _ agree)
  | none => exact .none
  | stuck isStuck => exact .stuck (stuck _ isStuck)

theorem Follows.bind_same {o : Option α} {f : α → Option γ} {g : α → Option δ}
    (later : ∀ x, Follows S T (f x) (g x)) : Follows S T (o.bind f) (o.bind g) := by
  cases o with
  | none => exact .none
  | some x => exact later x

theorem Follows.map_same {o : Option α} {f : α → γ} {g : α → δ} (later : ∀ x, S (f x) (g x)) :
    Follows S T (o.map f) (o.map g) := by
  cases o with
  | none => exact .none
  | some x => exact .some (later x)

theorem Follows.mono {R' : α → β → Prop} {Stuck' : β → Prop} (follows : Follows R Stuck a b)
    (weaker : ∀ x y, R x y → R' x y) (weakerToo : ∀ y, Stuck y → Stuck' y) :
    Follows R' Stuck' a b := by
  cases follows with
  | some agree => exact .some (weaker _ _ agree)
  | none => exact .none
  | stuck isStuck => exact .stuck (weakerToo _ isStuck)

end

variable {α : Type} {c : Char} {cs cs' rest rest' : List Char} {bound more : Nat} {verbose : Bool}
  {flags : Flags}

theorem Agree.mono {x y : α × List Char} (agree : Agree bound x y) (most : bound ≤ more) :
    Agree more x y :=
  ⟨agree.same, agree.behind, Nat.lt_of_lt_of_le agree.shorter most⟩

theorem Follows.widen {Stuck : α × List Char → Prop} {a b : Option (α × List Char)}
    (follows : Follows (Agree bound) Stuck a b) (most : bound ≤ more) :
    Follows (Agree more) Stuck a b :=
  follows.mono (fun _ _ agree => agree.mono most) fun _ => id

theorem Follows.of_never {β : Type} {R : α → β → Prop} {Stuck : β → Prop} {a : Option α}
    {b : Option β} (follows : Follows R Never a b) : Follows R Stuck a b :=
  follows.mono (fun _ _ => id) fun _ => False.elim

theorem Behind.of_nil (behind : Behind [] cs') : cs' = ending ∨ cs' = [] := by
  generalize used : ([] : List Char) = cs at behind
  cases behind with
  | shown => exact .inl (by rw [← used, List.nil_append])
  | hidden => exact .inr rfl

theorem Behind.of_cons (behind : Behind (c :: cs) cs') :
    ∃ rest, cs' = c :: rest ∧ Behind cs rest := by
  cases behind with
  | shown => exact ⟨cs ++ ending, rfl, .shown cs⟩

theorem Behind.length_le_add (behind : Behind cs cs') : cs'.length ≤ cs.length + ending.length := by
  cases behind with
  | shown => rw [List.length_append]
  | hidden => exact Nat.zero_le _

theorem Behind.length_lt {tail tail' : List Char} (behind : Behind cs cs')
    (after : Behind tail tail') (shorter : tail.length < cs.length) :
    tail'.length < cs'.length := by
  cases behind with
  | hidden => cases shorter
  | shown =>
    cases after with
    | shown => simpa using shorter
    | hidden => simp [ending]

theorem Behind.skip (verbose : Bool) (behind : Behind cs cs') :
    Behind (skip verbose cs) (skip verbose cs') := by
  cases behind with
  | hidden => cases verbose <;> exact .hidden
  | shown =>
    cases verbose with
    | false => exact .shown cs
    | true => exact go false cs
where
  go (comment : Bool) (cs : List Char) :
      Behind (skip.go comment cs) (skip.go comment (cs ++ ending)) := by
    induction cs generalizing comment with
    | nil =>
      cases comment with
      | false => exact .shown []
      | true => exact .hidden
    | cons c cs ih =>
      rw [List.cons_append, Regex.skip.go, Regex.skip.go]
      split_ifs
      · exact ih _
      · exact ih false
      · exact ih true
      · exact .shown (c :: cs)

theorem skip_nil : skip verbose [] = [] := by
  cases verbose <;> rfl

theorem skip_cons (notBlank : Text.isBlank c = false) (noComment : c ≠ '#') :
    skip verbose (c :: cs) = c :: cs := by
  cases verbose with
  | false => rfl
  | true => simp [skip, skip.go, notBlank, noComment]

theorem length_skip_le (verbose : Bool) (cs : List Char) :
    (skip verbose cs).length ≤ cs.length := by
  cases verbose with
  | false => exact Nat.le_refl _
  | true => exact go false cs
where
  go (comment : Bool) (cs : List Char) : (skip.go comment cs).length ≤ cs.length := by
    induction cs generalizing comment with
    | nil => exact Nat.le_refl _
    | cons c cs ih =>
      rw [Regex.skip.go]
      split_ifs
      · exact Nat.le_succ_of_le (ih _)
      · exact Nat.le_succ_of_le (ih false)
      · exact Nat.le_succ_of_le (ih true)
      · exact Nat.le_refl _

theorem Behind.trimStart (behind : Behind cs cs') :
    Behind (Text.trimStart cs) (Text.trimStart cs') := by
  cases behind with
  | hidden => exact .hidden
  | shown =>
    induction cs with
    | nil => exact .shown []
    | cons c cs ih =>
      rw [Text.trimStart, Text.trimStart, List.cons_append, List.dropWhile_cons,
        List.dropWhile_cons]
      split_ifs
      · exact ih
      · exact .shown (c :: cs)

theorem length_trimStart_le (cs : List Char) : (Text.trimStart cs).length ≤ cs.length :=
  (List.dropWhile_suffix _).length_le

/-- What is gathered with and without the ending: the same, or `test` holds of all that is left. -/
inductive Gathers (test : Char → Bool) (cs : List Char) :
    List Char × List Char → List Char × List Char → Prop
  | same {got rest rest' : List Char} :
      (test ')' = true → rest ≠ []) → Behind rest rest' → rest.length ≤ cs.length →
      Gathers test cs (got, rest) (got, rest')
  | all {got got' : List Char} : test ')' = true → Gathers test cs (got, []) (got', [])

theorem gatherWhile_nil (test : Char → Bool) (fuel : Nat) :
    gatherWhile verbose test fuel [] = ([], []) := by
  cases fuel <;> rfl

theorem gatherWhile_ending {test : Char → Bool} (alike : test ')' = test '$') {fuel : Nat}
    (enough : ending.length ≤ fuel) :
    Gathers test [] ([], []) (gatherWhile verbose test fuel ending) := by
  obtain ⟨fuel, rfl⟩ := Nat.exists_eq_add_of_le' enough
  cases takes : test ')' with
  | false =>
    have stops : gatherWhile verbose test (fuel + 2) ending = ([], ending) := by
      simp [ending, gatherWhile, takes]
    exact stops ▸ .same (by simp [takes]) (.shown []) (Nat.le_refl _)
  | true =>
    have blanks (cs : List Char) : skip verbose ('$' :: cs) = '$' :: cs :=
      skip_cons rfl (by decide)
    have goesOn : gatherWhile verbose test (fuel + 2) ending = ([')', '$'], []) := by
      simp [ending, gatherWhile, takes, ← alike, blanks, skip_nil, gatherWhile_nil]
    exact goesOn ▸ .all takes

theorem gatherWhile_used (test : Char → Bool) (fuel fuel' : Nat) :
    Gathers test [] (gatherWhile verbose test fuel []) (gatherWhile verbose test fuel' []) := by
  rw [gatherWhile_nil, gatherWhile_nil]
  cases takes : test ')' with
  | false => exact .same (by simp [takes]) .hidden (Nat.le_refl _)
  | true => exact .all takes

theorem gathers (verbose : Bool) (test : Char → Bool) (alike : test ')' = test '$')
    (behind : Behind cs cs') (fuel fuel' : Nat) (enough : cs.length ≤ fuel)
    (enough' : cs'.length ≤ fuel') :
    Gathers test cs (gatherWhile verbose test fuel cs) (gatherWhile verbose test fuel' cs') := by
  induction fuel generalizing cs cs' fuel' with
  | zero =>
    obtain rfl := List.length_eq_zero_iff.mp (Nat.le_zero.mp enough)
    rcases behind.of_nil with rfl | rfl
    · exact gatherWhile_ending alike enough'
    · exact gatherWhile_used test 0 fuel'
  | succ fuel ih =>
    cases cs with
    | nil =>
      rcases behind.of_nil with rfl | rfl
      · exact gatherWhile_ending alike enough'
      · exact gatherWhile_used test (fuel + 1) fuel'
    | cons c cs =>
      obtain ⟨rest, rfl, inner⟩ := behind.of_cons
      obtain ⟨fuel', rfl⟩ := Nat.exists_eq_add_of_le' (Nat.le_trans (Nat.le_add_left 1 _) enough')
      have shorter := length_skip_le verbose cs
      have shorterToo := length_skip_le verbose rest
      rw [List.length_cons] at enough enough'
      rw [gatherWhile, gatherWhile]
      split_ifs
      · have later := ih (inner.skip verbose) fuel' (by omega) (by omega)
        generalize gatherWhile verbose test fuel (skip verbose cs) = x at later
        generalize gatherWhile verbose test fuel' (skip verbose rest) = y at later
        cases later with
        | same some behind most => exact .same some behind (by rw [List.length_cons]; omega)
        | all takes => exact .all takes
      · exact .same (fun _ => List.cons_ne_nil c cs) behind (Nat.le_refl _)

/-- What is gathered of a fixed number of characters with and without the ending. Where the text is
too short for them, either is too short or a parenthesis is gathered. -/
inductive Takes (width : Nat) (cs : List Char) :
    List Char × List Char → List Char × List Char → Prop
  | same {got rest rest' : List Char} :
      Behind rest rest' → rest.length ≤ cs.length → Takes width cs (got, rest) (got, rest')
  | short {got got' rest rest' : List Char} :
      got.length ≠ width → (got'.length = width → ')' ∈ got') →
      Takes width cs (got, rest) (got', rest')

theorem takes (verbose : Bool) (width : Nat) (behind : Behind cs cs') :
    Takes width cs (hexEscape?.gatherFixed verbose width cs)
      (hexEscape?.gatherFixed verbose width cs') := by
  induction width generalizing cs cs' with
  | zero => exact .same behind (Nat.le_refl _)
  | succ width ih =>
    cases cs with
    | nil =>
      rcases behind.of_nil with rfl | rfl
      · exact .short (Nat.succ_ne_zero width).symm fun _ => List.mem_cons_self
      · exact .same .hidden (Nat.le_refl _)
    | cons c cs =>
      obtain ⟨rest, rfl, inner⟩ := behind.of_cons
      have shorter := length_skip_le verbose cs
      have later := ih (inner.skip verbose)
      rw [hexEscape?.gatherFixed, hexEscape?.gatherFixed]
      generalize hexEscape?.gatherFixed verbose width (skip verbose cs) = x at later
      generalize hexEscape?.gatherFixed verbose width (skip verbose rest) = y at later
      cases later with
      | same behind most => exact .same behind (by rw [List.length_cons]; omega)
      | short notAll hasEnd =>
        exact .short (fun all => notAll (Nat.succ.inj all)) fun all =>
          List.mem_cons_of_mem c (hasEnd (Nat.succ.inj all))

theorem head?_ne_some (other : ∀ tail, cs = c :: tail → False) : cs.head? ≠ some c := by
  intro head
  obtain ⟨tail, rfl⟩ := List.head?_eq_some_iff.mp head
  exact other tail rfl

theorem Behind.head?_iff (behind : Behind cs cs') (notEnd : c ≠ ')') :
    cs.head? = some c ↔ cs'.head? = some c := by
  cases behind with
  | hidden => exact Iff.rfl
  | shown =>
    cases cs with
    | nil =>
      constructor
      · rintro ⟨⟩
      · exact fun head => absurd (Option.some.inj head).symm notEnd
    | cons => exact Iff.rfl

theorem Behind.take_two_iff {d : Char} (behind : Behind cs cs') (notEnd : c ≠ ')')
    (notEndToo : d ≠ ')') : cs.take 2 = [c, d] ↔ cs'.take 2 = [c, d] := by
  cases behind with
  | hidden => exact Iff.rfl
  | shown =>
    rcases cs with _ | ⟨x, _ | ⟨y, cs⟩⟩
    · simp [ending, Ne.symm notEnd]
    · simp [ending, Ne.symm notEndToo]
    · exact Iff.rfl

theorem eq_cons_of_take_two {d : Char} (begins : cs.take 2 = [c, d]) :
    cs = c :: d :: cs.drop 2 := by
  have whole := List.take_append_drop 2 cs
  rw [begins] at whole
  exact whole.symm

theorem not_mem_append_ending (notMember : c ∉ cs) (notEnd : c ∉ ending) : c ∉ cs ++ ending := by
  rw [List.mem_append, not_or]
  exact ⟨notMember, notEnd⟩

theorem ne_of_not_mem (notMember : c ∉ cs) : ∀ d ∈ cs, decide (d ≠ c) = true := by
  intro d isMember
  rw [decide_eq_true_iff]
  rintro rfl
  exact notMember isMember

theorem dropWhile_ne_eq_nil (notMember : c ∉ cs) : cs.dropWhile (· ≠ c) = [] :=
  List.dropWhile_eq_nil_iff.2 (ne_of_not_mem notMember)

theorem dropWhile_ne_append (notMember : c ∉ cs) (rest : List Char) :
    (cs ++ c :: rest).dropWhile (· ≠ c) = c :: rest := by
  rw [List.dropWhile_append_of_pos (ne_of_not_mem notMember), List.dropWhile_cons_of_neg (by simp)]

theorem takeWhile_ne_append (notMember : c ∉ cs) (rest : List Char) :
    (cs ++ c :: rest).takeWhile (· ≠ c) = cs := by
  rw [List.takeWhile_append_of_pos (ne_of_not_mem notMember),
    List.takeWhile_cons_of_neg (by simp), List.append_nil]

theorem Behind.advance (verbose : Bool) (behind : Behind (c :: cs) (c :: cs')) :
    Behind (advance verbose (c :: cs)) (advance verbose (c :: cs')) := by
  obtain ⟨rest, same, inner⟩ := behind.of_cons
  cases same
  exact inner.skip verbose

theorem length_advance_lt (verbose : Bool) (c : Char) (cs : List Char) :
    (advance verbose (c :: cs)).length < (c :: cs).length :=
  Nat.lt_succ_of_le (length_skip_le verbose cs)

end ApiContract.Regex

import ApiContract.Regex.Basic
import Mathlib.Data.Nat.Bitwise
import Mathlib.Logic.Function.Iterate

/-!
Matching by sets of places.

`Regex.reach` computes for a whole set of places at once what `Regex.Spans` says of single ones. A
repetition without a greatest count is cut off after one round more than the text has characters.
Nothing is lost by that: a round that does not move can be left out, and the others move on.
-/

namespace ApiContract.Regex

variable {text : List Char} {r s : Regex} {i j k m n : Nat}

theorem testBit_zero_toNat_add (b : Bool) (n : Nat) : (b.toNat + 2 * n).testBit 0 = b := by
  rw [Nat.add_comm, ← Nat.bit_val, Nat.testBit_bit_zero]

theorem testBit_succ_toNat_add (b : Bool) (n i : Nat) :
    (b.toNat + 2 * n).testBit (i + 1) = n.testBit i := by
  rw [Nat.add_comm, ← Nat.bit_val, Nat.testBit_bit_succ]

theorem testBit_memberPlaces (members : Unicode.CodeSet) (text : List Char) (i : Nat) :
    (memberPlaces members text).testBit i = true ↔
      ∃ c, text[i]? = some c ∧ members.contains c.toNat = true := by
  induction text generalizing i with
  | nil => simp [memberPlaces]
  | cons c cs ih =>
    cases i with
    | zero => rw [memberPlaces, testBit_zero_toNat_add]; simp
    | succ i => rw [memberPlaces, testBit_succ_toNat_add, ih i, List.getElem?_cons_succ]

theorem testBit_places (l : Look) (before : Option Char) (text : List Char) (i : Nat) :
    (l.places before text).testBit i = true ↔
      i ≤ text.length ∧ l.holds (if i = 0 then before else text[i - 1]?) text[i]? = true := by
  induction text generalizing before i with
  | nil =>
    cases i with
    | zero => cases holds : l.holds before none <;> simp [Look.places, holds]
    | succ i => cases holds : l.holds before none <;> simp [Look.places, holds, Nat.testBit_succ]
  | cons c cs ih =>
    cases i with
    | zero => rw [Look.places, testBit_zero_toNat_add]; simp
    | succ i =>
      rw [Look.places, testBit_succ_toNat_add, ih (some c) i]
      cases i with
      | zero => simp
      | succ i => simp

/-- Stopping early makes no difference: from a set that a step leaves alone no further one is
reached. -/
theorem power_eq_iterate (step : Nat → Nat) (n ps : Nat) : power step n ps = step^[n] ps := by
  induction n generalizing ps with
  | zero => rfl
  | succ n ih =>
    rw [power]
    split_ifs with stays
    · exact (Function.iterate_fixed stays (n + 1)).symm
    · rw [ih, Function.iterate_succ_apply]

theorem closure_eq_iterate (step : Nat → Nat) (n ps : Nat) :
    closure step n ps = (fun ps => ps ||| step ps)^[n] ps := by
  induction n generalizing ps with
  | zero => rfl
  | succ n ih =>
    rw [closure]
    split_ifs with stays
    · exact (Function.iterate_fixed stays (n + 1)).symm
    · rw [ih, Function.iterate_succ_apply]

/-- The step takes a set of places to those that the expression matches up to from them. -/
def Moves (text : List Char) (r : Regex) (step : Nat → Nat) : Prop :=
  ∀ ps j, (step ps).testBit j = true ↔ ∃ i, ps.testBit i = true ∧ Spans text r i j

theorem spansTimes_zero_iff : SpansTimes text r 0 i j ↔ i = j := by
  constructor
  · rintro ⟨⟩
    rfl
  · rintro rfl
    exact .zero

theorem spansTimes_succ_iff :
    SpansTimes text r (n + 1) i k ↔ ∃ j, Spans text r i j ∧ SpansTimes text r n j k := by
  constructor
  · rintro (_ | ⟨first, later⟩)
    exact ⟨_, first, later⟩
  · rintro ⟨j, first, later⟩
    exact .succ first later

theorem spansTimes_add_iff :
    SpansTimes text r (m + n) i k ↔
      ∃ j, SpansTimes text r m i j ∧ SpansTimes text r n j k := by
  induction m generalizing i with
  | zero => simp [spansTimes_zero_iff]
  | succ m ih =>
    rw [Nat.succ_add, spansTimes_succ_iff]
    simp only [ih, spansTimes_succ_iff]
    constructor
    · rintro ⟨x, first, j, middle, later⟩
      exact ⟨j, ⟨x, first, middle⟩, later⟩
    · rintro ⟨j, ⟨x, first, middle⟩, later⟩
      exact ⟨x, first, j, middle, later⟩

theorem Moves.testBit_iterate {step : Nat → Nat} (moves : Moves text r step) (n ps j : Nat) :
    (step^[n] ps).testBit j = true ↔ ∃ i, ps.testBit i = true ∧ SpansTimes text r n i j := by
  induction n generalizing ps with
  | zero => simp [spansTimes_zero_iff]
  | succ n ih =>
    rw [Function.iterate_succ_apply, ih]
    simp only [moves ps, spansTimes_succ_iff]
    constructor
    · rintro ⟨x, ⟨i, isPlace, first⟩, later⟩
      exact ⟨i, isPlace, x, first, later⟩
    · rintro ⟨i, isPlace, x, first, later⟩
      exact ⟨x, ⟨i, isPlace, first⟩, later⟩

theorem Moves.testBit_closure {step : Nat → Nat} (moves : Moves text r step) (n ps j : Nat) :
    (closure step n ps).testBit j = true ↔
      ∃ m ≤ n, ∃ i, ps.testBit i = true ∧ SpansTimes text r m i j := by
  rw [closure_eq_iterate]
  induction n generalizing ps with
  | zero => simp [spansTimes_zero_iff]
  | succ n ih =>
    rw [Function.iterate_succ_apply, ih]
    constructor
    · rintro ⟨m, most, x, isPlace, later⟩
      rw [Nat.testBit_or, Bool.or_eq_true, moves ps x] at isPlace
      rcases isPlace with isPlace | ⟨i, isPlace, first⟩
      · exact ⟨m, by omega, x, isPlace, later⟩
      · exact ⟨m + 1, by omega, i, isPlace, .succ first later⟩
    · rintro ⟨m, most, i, isPlace, times⟩
      cases m with
      | zero =>
        exact ⟨0, Nat.zero_le n, i, by rw [Nat.testBit_or, isPlace, Bool.true_or], times⟩
      | succ m =>
        obtain ⟨x, first, later⟩ := spansTimes_succ_iff.mp times
        refine ⟨m, by omega, x, ?_, later⟩
        rw [Nat.testBit_or, Bool.or_eq_true, moves ps x]
        exact .inr ⟨i, isPlace, first⟩

/-- No match moves back, and those that move end inside the text. -/
def Forward (text : List Char) (r : Regex) : Prop :=
  ∀ {i j}, Spans text r i j → i ≤ j ∧ (i = j ∨ j ≤ text.length)

theorem Forward.times (forward : Forward text r) (times : SpansTimes text r n i j) :
    i ≤ j ∧ (i = j ∨ j ≤ text.length) := by
  induction n generalizing i with
  | zero =>
    obtain rfl := spansTimes_zero_iff.mp times
    omega
  | succ n ih =>
    obtain ⟨x, first, later⟩ := spansTimes_succ_iff.mp times
    have ends := forward first
    have endsToo := ih later
    omega

theorem forward (text : List Char) (r : Regex) : Forward text r := by
  induction r with
  | empty =>
    rintro i j ⟨⟩
    omega
  | set =>
    rintro i j (_ | ⟨isChar, -⟩)
    have inside := (List.getElem?_eq_some_iff.mp isChar).1
    omega
  | look =>
    rintro i j ⟨⟩
    omega
  | seq r s first second =>
    rintro i j (_ | _ | _ | ⟨left, right⟩)
    have ends := first left
    have endsToo := second right
    omega
  | alt r s left right =>
    rintro i j (_ | _ | _ | _ | spans | spans)
    · exact left spans
    · exact right spans
  | rep r least most body =>
    rintro i j (_ | _ | _ | _ | _ | _ | ⟨-, -, times⟩)
    exact body.times times

/-- Rounds that do not move can be left out. -/
theorem exists_spansTimes_le (times : SpansTimes text r n i j) :
    ∃ m ≤ j - i, SpansTimes text r m i j := by
  induction n generalizing i with
  | zero =>
    obtain rfl := spansTimes_zero_iff.mp times
    exact ⟨0, Nat.zero_le _, .zero⟩
  | succ n ih =>
    obtain ⟨x, first, later⟩ := spansTimes_succ_iff.mp times
    obtain ⟨m, most, fewer⟩ := ih later
    by_cases stays : i = x
    · subst stays
      exact ⟨m, most, fewer⟩
    · have ahead := (forward text r first).1
      have aheadToo := (Forward.times (forward text r) later).1
      exact ⟨m + 1, by omega, .succ first fewer⟩

/-- The text is too short for more rounds than the closure makes. -/
theorem exists_spansTimes_iff :
    (∃ n, SpansTimes text r n i j) ↔ ∃ n ≤ text.length + 1, SpansTimes text r n i j := by
  constructor
  · rintro ⟨n, times⟩
    obtain ⟨m, most, fewer⟩ := exists_spansTimes_le times
    have ends := Forward.times (forward text r) times
    exact ⟨m, by omega, fewer⟩
  · rintro ⟨n, -, times⟩
    exact ⟨n, times⟩

/-- No repetition has a greatest count below its least. -/
def Counted : Regex → Prop
  | .empty => True
  | .set _ => True
  | .look _ => True
  | .seq r s => r.Counted ∧ s.Counted
  | .alt r s => r.Counted ∧ s.Counted
  | .rep r least most => r.Counted ∧ ∀ bound ∈ most, least ≤ bound

theorem spans_rep_iff {least : Nat} {most : Option Nat} :
    Spans text (.rep r least most) i j ↔
      ∃ n, least ≤ n ∧ (∀ bound, most = some bound → n ≤ bound) ∧ SpansTimes text r n i j := by
  constructor
  · rintro (_ | _ | _ | _ | _ | _ | ⟨isLeast, isMost, times⟩)
    exact ⟨_, isLeast, isMost, times⟩
  · rintro ⟨n, isLeast, isMost, times⟩
    exact .rep isLeast isMost times

theorem Moves.rep {least : Nat} {most : Option Nat} (moves : Moves text r (reach text r))
    (counted : ∀ bound ∈ most, least ≤ bound) :
    Moves text (.rep r least most) (reach text (.rep r least most)) := by
  intro ps j
  simp only [spans_rep_iff]
  cases most with
  | none =>
    simp only [reach, power_eq_iterate, moves.testBit_closure, moves.testBit_iterate]
    constructor
    · rintro ⟨n, -, x, ⟨i, isPlace, first⟩, later⟩
      exact ⟨i, isPlace, least + n, by omega, by simp, spansTimes_add_iff.mpr ⟨x, first, later⟩⟩
    · rintro ⟨i, isPlace, n, isLeast, -, times⟩
      obtain ⟨more, rfl⟩ := Nat.exists_eq_add_of_le isLeast
      obtain ⟨x, first, later⟩ := spansTimes_add_iff.mp times
      obtain ⟨m, most, fewer⟩ := exists_spansTimes_iff.mp ⟨more, later⟩
      exact ⟨m, most, x, ⟨i, isPlace, first⟩, fewer⟩
  | some bound =>
    simp only [reach, power_eq_iterate, moves.testBit_closure, moves.testBit_iterate]
    have inOrder : least ≤ bound := counted bound rfl
    constructor
    · rintro ⟨n, most, x, ⟨i, isPlace, first⟩, later⟩
      refine ⟨i, isPlace, least + n, by omega, ?_, spansTimes_add_iff.mpr ⟨x, first, later⟩⟩
      rintro _ ⟨⟩
      omega
    · rintro ⟨i, isPlace, n, isLeast, isMost, times⟩
      have most := isMost bound rfl
      obtain ⟨more, rfl⟩ := Nat.exists_eq_add_of_le isLeast
      obtain ⟨x, first, later⟩ := spansTimes_add_iff.mp times
      exact ⟨more, by omega, x, ⟨i, isPlace, first⟩, later⟩

/-- The places that are reached are those that the expression matches up to. -/
theorem testBit_reach (counted : r.Counted) : Moves text r (reach text r) := by
  induction r with
  | empty =>
    intro ps j
    rw [reach]
    constructor
    · exact fun isPlace => ⟨j, isPlace, .empty⟩
    · rintro ⟨i, isPlace, ⟨⟩⟩
      exact isPlace
  | set members =>
    intro ps j
    rw [reach, Nat.testBit_shiftLeft]
    cases j with
    | zero =>
      have before : decide (0 ≥ 1) = false := rfl
      rw [before, Bool.false_and]
      constructor
      · rintro ⟨⟩
      · rintro ⟨i, -, ⟨⟩⟩
    | succ j =>
      simp only [ge_iff_le, Nat.le_add_left, decide_true, Bool.true_and, Nat.add_sub_cancel,
        Nat.testBit_and, Bool.and_eq_true, testBit_memberPlaces]
      constructor
      · rintro ⟨isPlace, c, isChar, isMember⟩
        exact ⟨j, isPlace, .set isChar isMember⟩
      · rintro ⟨i, isPlace, (_ | ⟨isChar, isMember⟩)⟩
        exact ⟨isPlace, _, isChar, isMember⟩
  | look l =>
    intro ps j
    rw [reach, Nat.testBit_and, Bool.and_eq_true, testBit_places]
    constructor
    · rintro ⟨isPlace, inside, holds⟩
      exact ⟨j, isPlace, .look inside holds⟩
    · rintro ⟨i, isPlace, (_ | _ | ⟨inside, holds⟩)⟩
      exact ⟨isPlace, inside, holds⟩
  | seq r s first second =>
    intro ps k
    rw [reach, second counted.2]
    simp only [first counted.1 ps]
    constructor
    · rintro ⟨j, ⟨i, isPlace, left⟩, right⟩
      exact ⟨i, isPlace, .seq left right⟩
    · rintro ⟨i, isPlace, (_ | _ | _ | ⟨left, right⟩)⟩
      exact ⟨_, ⟨i, isPlace, left⟩, right⟩
  | alt r s left right =>
    intro ps j
    rw [reach, Nat.testBit_or, Bool.or_eq_true, left counted.1, right counted.2]
    constructor
    · rintro (⟨i, isPlace, spans⟩ | ⟨i, isPlace, spans⟩)
      · exact ⟨i, isPlace, .altLeft spans⟩
      · exact ⟨i, isPlace, .altRight spans⟩
    · rintro ⟨i, isPlace, (_ | _ | _ | _ | spans | spans)⟩
      · exact .inl ⟨i, isPlace, spans⟩
      · exact .inr ⟨i, isPlace, spans⟩
  | rep r least most body => exact (body counted.1).rep counted.2

theorem isMatch_iff (counted : r.Counted) :
    r.isMatch text = true ↔ ∃ i ≤ text.length, ∃ j, Spans text r i j := by
  have isPlace (i : Nat) : (allPlaces text).testBit i = true ↔ i ≤ text.length := by
    rw [allPlaces, Nat.pow_eq, Nat.testBit_two_pow_sub_one, decide_eq_true_iff, Nat.lt_succ_iff]
  rw [isMatch, bne_iff_ne]
  constructor
  · intro some
    obtain ⟨j, reached⟩ := Nat.exists_testBit_of_ne_zero some
    obtain ⟨i, inside, spans⟩ := (testBit_reach counted (allPlaces text) j).mp reached
    exact ⟨i, (isPlace i).mp inside, j, spans⟩
  · rintro ⟨i, inside, j, spans⟩ none
    have reached :=
      (testBit_reach counted (allPlaces text) j).mpr ⟨i, (isPlace i).mpr inside, spans⟩
    rw [none, Nat.zero_testBit] at reached
    cases reached

def betweenEnds (r : Regex) : Regex := .seq (.look .start) (.seq r (.look .finish))

theorem spans_start_iff : Spans text (.look .start) i j ↔ i = 0 ∧ j = 0 := by
  constructor
  · rintro (_ | _ | ⟨inside, holds⟩)
    by_cases first : i = 0
    · exact ⟨first, first⟩
    · have some : i - 1 < text.length := by omega
      rw [if_neg first, List.getElem?_eq_getElem some] at holds
      cases holds
  · rintro ⟨rfl, rfl⟩
    exact .look (Nat.zero_le _) rfl

theorem spans_finish_iff : Spans text (.look .finish) i j ↔ i = text.length ∧ j = text.length := by
  constructor
  · rintro (_ | _ | ⟨inside, holds⟩)
    have last : text[i]? = none := by simpa [Look.holds] using holds
    have beyond := List.getElem?_eq_none_iff.mp last
    omega
  · rintro ⟨rfl, rfl⟩
    exact .look (Nat.le_refl _) (by simp [Look.holds])

theorem spans_betweenEnds_iff :
    Spans text (betweenEnds r) i j ↔
      i = 0 ∧ j = text.length ∧ Spans text r 0 text.length := by
  constructor
  · rintro (_ | _ | _ | ⟨first, (_ | _ | _ | ⟨middle, last⟩)⟩)
    obtain ⟨rfl, rfl⟩ := spans_start_iff.mp first
    obtain ⟨rfl, rfl⟩ := spans_finish_iff.mp last
    exact ⟨rfl, rfl, middle⟩
  · rintro ⟨rfl, rfl, spans⟩
    exact .seq (spans_start_iff.mpr ⟨rfl, rfl⟩) (.seq spans (spans_finish_iff.mpr ⟨rfl, rfl⟩))

/-- Between the ends of a text, an expression matches when it matches all of it. -/
theorem isMatch_betweenEnds_iff (counted : r.Counted) :
    (betweenEnds r).isMatch text = true ↔ Spans text r 0 text.length := by
  have countedToo : (betweenEnds r).Counted := ⟨trivial, counted, trivial⟩
  rw [isMatch_iff countedToo]
  simp only [spans_betweenEnds_iff]
  constructor
  · rintro ⟨i, -, j, -, -, spans⟩
    exact spans
  · intro spans
    exact ⟨0, Nat.zero_le _, text.length, rfl, rfl, spans⟩

end ApiContract.Regex

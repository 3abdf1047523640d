import ApiContract.Proofs.Regex.Escapes

/-!
Reading the items and the head of a bracketed set with the ending behind the text.

An item is a character, a range or a named class. The head of a set may negate it and may begin
with dashes and a bracket that stand for themselves.
-/

namespace ApiContract.Regex

open Unicode

variable {c : Char} {cs cs' rest rest' : List Char} {bound : Nat} {verbose : Bool} {flags : Flags}

/-- What is left where a part of a set is read only with the ending: no bracket to close it. -/
def StuckSet {α : Type} (y : α × List Char) : Prop := y.2 = ['$'] ∨ y.2 = ending

theorem setItem?_literal (noEscape : c ≠ '\\') :
    setItem? flags (c :: cs) = some (.literal c.toNat false, cs) := by
  unfold setItem?
  split
  · next same => cases same
  · next same => exact absurd (List.cons.inj same).1 noEscape
  · next same =>
    cases same
    rfl

theorem setItem?_follows (behind : Behind cs cs') :
    Follows (Agree cs.length) (StuckEscape flags) (setItem? flags cs) (setItem? flags cs') := by
  cases cs with
  | nil =>
    rcases behind.of_nil with rfl | rfl
    · exact .stuck (.inl rfl)
    · exact .none
  | cons c cs =>
    obtain ⟨rest, rfl, inner⟩ := behind.of_cons
    by_cases escape : c = '\\'
    · subst escape
      exact escape?_follows inner
    · rw [setItem?_literal escape, setItem?_literal escape]
      exact .some ⟨rfl, inner, Nat.lt_succ_self _⟩

theorem peekBehind_verbose (c : Char) (cs : List Char) :
    peekBehind true (c :: cs) =
      if (Text.trimStart cs).head? = some '#' then (Text.trimStart (Text.trimStart cs).tail).head?
      else (Text.trimStart cs).head? := by
  rw [peekBehind, if_pos rfl, List.drop_succ_cons, List.drop_zero]
  generalize Text.trimStart cs = blank
  split
  · rfl
  · next noComment => rw [if_neg (head?_ne_some noComment)]

theorem peekBehind_iff (inner : Behind cs cs') {d : Char} (notEnd : d ≠ ')') :
    peekBehind verbose (c :: cs) = some d ↔ peekBehind verbose (c :: cs') = some d := by
  cases verbose with
  | false => exact inner.head?_iff notEnd
  | true =>
    have behind := inner.trimStart
    have comment := behind.head?_iff (c := '#') (by decide)
    rw [peekBehind_verbose, peekBehind_verbose]
    by_cases isComment : (Text.trimStart cs).head? = some '#'
    · rw [if_pos isComment, if_pos (comment.mp isComment)]
      obtain ⟨rest, left⟩ := List.head?_eq_some_iff.mp isComment
      rw [left] at behind ⊢
      obtain ⟨rest', left', after⟩ := behind.of_cons
      rw [left']
      exact after.trimStart.head?_iff notEnd
    · rw [if_neg isComment, if_neg (mt comment.mpr isComment)]
      exact behind.head?_iff notEnd

/-- Whether the item in front of a text stands alone: no dash with the end of a range follows. -/
def StandsAlone (verbose : Bool) (cs : List Char) : Prop :=
  cs.head? ≠ some '-' ∨ peekBehind verbose cs = some ']' ∨ peekBehind verbose cs = some '-'

instance (verbose : Bool) (cs : List Char) : Decidable (StandsAlone verbose cs) :=
  inferInstanceAs (Decidable (_ ∨ _ ∨ _))

def singleItem? (flags : Flags) (item : Escape) : Option Part :=
  match item with
  | .literal n isByte => (literalItem? flags n isByte).map fun n => ⟨CodeSet.singleton n, 0⟩
  | .set s => some ⟨s, 0⟩
  | .look _ => none

def rangeItem? (flags : Flags) (item last : Escape) : Option Part :=
  match item, last with
  | .literal m isByte, .literal n isByte' =>
    (literalItem? flags m isByte).bind fun m => (literalItem? flags n isByte').bind fun n =>
      if m ≤ n then some ⟨CodeSet.range m n, 0⟩ else none
  | _, _ => none

theorem setRange?_eq (flags : Flags) (cs : List Char) :
    setRange? flags cs =
      (setItem? flags cs).bind fun x =>
        let rest := skip flags.verbose x.2
        if rest = [] then none
        else if StandsAlone flags.verbose rest then
          (singleItem? flags x.1).map fun p => (p, rest)
        else
          (setItem? flags (advance flags.verbose rest)).bind fun y =>
            (rangeItem? flags x.1 y.1).map fun p => (p, y.2) := by
  unfold setRange?
  congr 1
  funext x
  obtain ⟨item, rest⟩ := x
  dsimp only
  generalize skip flags.verbose rest = rest
  cases rest with
  | nil => rfl
  | cons c rest =>
    have same : StandsAlone flags.verbose (c :: rest) ↔
        c ≠ '-' ∨ peekBehind flags.verbose (c :: rest) = some ']' ∨
          peekBehind flags.verbose (c :: rest) = some '-' := by
      simp [StandsAlone]
    simp only [List.cons_ne_nil, if_false, same]
    split_ifs
    · cases item with
      | literal n isByte => simp [singleItem?, Function.comp_def]
      | set s => rfl
      | look l => rfl
    · congr 1
      funext y
      obtain ⟨last, rest⟩ := y
      cases item with
      | literal m isByte =>
        cases last with
        | literal n isByte' =>
          simp only [rangeItem?]
          cases literalItem? flags m isByte with
          | none => rfl
          | some m =>
            cases literalItem? flags n isByte' with
            | none => rfl
            | some n =>
              change (if m ≤ n then _ else _) = Option.map _ (if m ≤ n then _ else _)
              split_ifs <;> rfl
        | set s => rfl
        | look l => rfl
      | set s => rfl
      | look l => rfl

theorem standsAlone_iff (behind : Behind (c :: cs) (c :: cs')) :
    StandsAlone verbose (c :: cs) ↔ StandsAlone verbose (c :: cs') := by
  obtain ⟨_, same, inner⟩ := behind.of_cons
  cases same
  unfold StandsAlone
  rw [peekBehind_iff inner (by decide), peekBehind_iff inner (by decide), List.head?_cons,
    List.head?_cons]

theorem setRange?_follows (behind : Behind cs cs') :
    Follows (Agree cs.length) StuckSet (setRange? flags cs) (setRange? flags cs') := by
  rw [setRange?_eq, setRange?_eq]
  refine (setItem?_follows behind).bind ?_ ?_
  · rintro ⟨item, rest⟩ ⟨_, rest'⟩ ⟨same, behind, shorter⟩
    obtain rfl : item = _ := same
    have most := length_skip_le flags.verbose rest
    have after := behind.skip flags.verbose
    dsimp only at behind after shorter ⊢
    generalize skip flags.verbose rest = left at after most
    generalize skip flags.verbose rest' = left' at after
    cases left with
    | nil =>
      rw [if_pos rfl]
      rcases after.of_nil with rfl | rfl
      · have alone : StandsAlone flags.verbose ending := .inl (by decide)
        have some : ending ≠ [] := List.cons_ne_nil _ _
        rw [if_neg some, if_pos alone]
        cases singleItem? flags item with
        | none => exact .none
        | some p => exact .stuck (.inr rfl)
      · exact .none
    | cons c left =>
      obtain ⟨left', rfl, -⟩ := after.of_cons
      simp only [List.cons_ne_nil, if_false, standsAlone_iff after]
      split_ifs
      · exact .map_same fun p => ⟨rfl, after, Nat.lt_of_le_of_lt most shorter⟩
      · refine (setItem?_follows (after.advance flags.verbose)).bind ?_ ?_
        · rintro ⟨last, tail⟩ ⟨_, tail'⟩ ⟨same, behindEnd, shorterEnd⟩
          obtain rfl : last = _ := same
          have least := length_advance_lt flags.verbose c left
          refine .map_same fun p => ⟨rfl, behindEnd, ?_⟩
          dsimp only at shorterEnd ⊢
          omega
        · rintro ⟨last, tail⟩ stuck z reads
          obtain ⟨p, isRange, rfl⟩ := Option.map_eq_some_iff.mp reads
          rcases stuck with isEnd | ⟨⟨l, isLook⟩, -⟩
          · exact .inl isEnd
          · obtain rfl : last = .look l := isLook
            cases item <;> cases isRange
  · rintro ⟨item, rest⟩ stuck z reads
    have alone {c : Char} (rest : List Char) (notDash : c ≠ '-') :
        StandsAlone flags.verbose (c :: rest) := .inl (by simpa using notDash)
    rcases stuck with isEnd | ⟨⟨l, isLook⟩, rest, isBrace, -⟩
    · obtain rfl : rest = ['$'] := isEnd
      rw [skip_cons rfl (by decide), if_neg (List.cons_ne_nil _ _),
        if_pos (alone [] (by decide))] at reads
      obtain ⟨p, -, rfl⟩ := Option.map_eq_some_iff.mp reads
      exact .inl rfl
    · obtain rfl : _ = '\x7b' :: rest := isBrace
      obtain rfl : item = .look l := isLook
      rw [skip_cons rfl (by decide), if_neg (List.cons_ne_nil _ _),
        if_pos (alone rest (by decide))] at reads
      cases reads

/-- A named set from behind its opening, up to the bracket behind its second colon. -/
def posixNamed? (flags : Flags) (negated : Bool) (cs : List Char) : Option (Part × List Char) :=
  match cs.dropWhile (· ≠ ':') with
  | ':' :: ']' :: tail =>
    (posixSet? (String.ofList (cs.takeWhile (· ≠ ':')))).map fun s =>
      (⟨foldAndNegate flags negated s, 0⟩, tail)
  | _ => none

def posixSign (cs : List Char) : Bool × List Char :=
  match cs with
  | '^' :: more => (true, more)
  | other => (false, other)

theorem posixSign_plain (noCaret : cs.head? ≠ some '^') : posixSign cs = (false, cs) := by
  unfold posixSign
  split
  · exact absurd rfl noCaret
  · rfl

theorem posixItem?_named (cs : List Char) :
    posixItem? flags ('[' :: ':' :: cs) =
      posixNamed? flags (posixSign cs).1 (posixSign cs).2 :=
  rfl

theorem posixItem?_other (noName : cs.take 2 ≠ ['[', ':']) : posixItem? flags cs = none := by
  unfold posixItem?
  split
  · exact absurd rfl noName
  · rfl

theorem posixNamed?_of_not_mem {negated : Bool} (noColon : ':' ∉ cs) :
    posixNamed? flags negated cs = none := by
  rw [posixNamed?, dropWhile_ne_eq_nil noColon]

theorem posixNamed?_of_name {negated : Bool} {name tail : List Char} (isName : ':' ∉ name) :
    posixNamed? flags negated (name ++ ':' :: tail) =
      if tail.head? = some ']' then
        (posixSet? (String.ofList name)).map fun s =>
          (⟨foldAndNegate flags negated s, 0⟩, tail.tail)
      else none := by
  rw [posixNamed?, dropWhile_ne_append isName, takeWhile_ne_append isName]
  split
  · next same =>
    cases same
    rfl
  · next other =>
    rw [if_neg]
    exact head?_ne_some fun rest same => other rest (by rw [same])

theorem posixNamed?_follows {negated : Bool} (behind : Behind cs cs') :
    Follows (Agree (cs.length + 1)) Never (posixNamed? flags negated cs)
      (posixNamed? flags negated cs') := by
  cases behind with
  | hidden => exact .none
  | shown =>
    by_cases isChar : ':' ∈ cs
    · obtain ⟨name, tail, rfl, isName⟩ := List.eq_append_cons_of_mem isChar
      have after : Behind tail (tail ++ ending) := .shown tail
      rw [List.append_assoc, List.cons_append, posixNamed?_of_name isName,
        posixNamed?_of_name isName]
      by_cases closes : tail.head? = some ']'
      · obtain ⟨tail, rfl⟩ := List.head?_eq_some_iff.mp closes
        refine .map_same fun s => ⟨rfl, .shown tail, ?_⟩
        simp
        omega
      · rw [if_neg closes, if_neg (mt (after.head?_iff (by decide)).mpr closes)]
        exact .none
    · have stillNot := not_mem_append_ending isChar (by decide)
      rw [posixNamed?_of_not_mem isChar, posixNamed?_of_not_mem stillNot]
      exact .none

theorem posixItem?_follows (flags : Flags) (behind : Behind cs cs') :
    Follows (Agree cs.length) Never (posixItem? flags cs) (posixItem? flags cs') := by
  by_cases named : cs.take 2 = ['[', ':']
  · obtain ⟨rest, rfl⟩ : ∃ rest, cs = '[' :: ':' :: rest := ⟨_, eq_cons_of_take_two named⟩
    obtain ⟨_, rfl, first⟩ := behind.of_cons
    obtain ⟨rest', rfl, inner⟩ := first.of_cons
    rw [posixItem?_named, posixItem?_named]
    by_cases caret : rest.head? = some '^'
    · obtain ⟨rest, rfl⟩ := List.head?_eq_some_iff.mp caret
      obtain ⟨rest', rfl, after⟩ := inner.of_cons
      exact (posixNamed?_follows after).widen (by simp)
    · rw [posixSign_plain caret,
        posixSign_plain (mt (inner.head?_iff (by decide)).mpr caret)]
      exact (posixNamed?_follows inner).widen (by simp)
  · have stillNot := mt (behind.take_two_iff (by decide) (by decide)).mpr named
    rw [posixItem?_other named, posixItem?_other stillNot]
    exact .none

theorem leadingDashes_stop (noDash : cs.head? ≠ some '-') (fuel : Nat) (items : Items) :
    leadingDashes verbose fuel items cs = (items, cs) := by
  unfold leadingDashes
  split
  · exact absurd rfl noDash
  · rfl

theorem leadingDashes_follows (verbose : Bool) (behind : Behind cs cs') (items : Items)
    (fuel fuel' : Nat) (enough : cs.length ≤ fuel) (enough' : cs'.length ≤ fuel') :
    (leadingDashes verbose fuel items cs).1 = (leadingDashes verbose fuel' items cs').1 ∧
      Behind (leadingDashes verbose fuel items cs).2 (leadingDashes verbose fuel' items cs').2 ∧
      (leadingDashes verbose fuel items cs).2.length ≤ cs.length := by
  induction fuel generalizing cs cs' items fuel' with
  | zero =>
    obtain rfl := List.length_eq_zero_iff.mp (Nat.le_zero.mp enough)
    have noDash : ([] : List Char).head? ≠ some '-' := by decide
    rw [leadingDashes_stop noDash,
      leadingDashes_stop (mt (behind.head?_iff (by decide)).mpr noDash)]
    exact ⟨rfl, behind, Nat.le_refl _⟩
  | succ fuel ih =>
    by_cases dash : cs.head? = some '-'
    · obtain ⟨cs, rfl⟩ := List.head?_eq_some_iff.mp dash
      obtain ⟨rest, rfl, inner⟩ := behind.of_cons
      obtain ⟨fuel', rfl⟩ := Nat.exists_eq_add_of_le' (Nat.le_trans (Nat.le_add_left 1 _) enough')
      have shorter := length_skip_le verbose cs
      have shorterToo := length_skip_le verbose rest
      rw [List.length_cons] at enough enough'
      obtain ⟨same, after, most⟩ := ih (inner.skip verbose)
        (items.push ⟨CodeSet.singleton '-'.toNat, 0⟩) fuel' (by omega) (by omega)
      exact ⟨same, after, Nat.le_succ_of_le (Nat.le_trans most shorter)⟩
    · rw [leadingDashes_stop dash, leadingDashes_stop (mt (behind.head?_iff (by decide)).mpr dash)]
      exact ⟨rfl, behind, Nat.le_refl _⟩

def setSign (verbose : Bool) (cs : List Char) : Bool × List Char :=
  match cs with
  | '^' :: rest => (true, skip verbose rest)
  | other => (false, other)

/-- The head of a set behind its dashes: a bracket there stands for itself. -/
def headItem? (flags : Flags) (negated : Bool) (items : Items) (cs : List Char) :
    Option (Bool × Items × List Char) :=
  match cs with
  | [] => none
  | ']' :: rest =>
    if items.count = 0 then
      match skip flags.verbose rest with
      | [] => none
      | rest => some (negated, items.push ⟨CodeSet.singleton ']'.toNat, 0⟩, rest)
    else some (negated, items, cs)
  | _ => some (negated, items, cs)

theorem setHead?_eq (flags : Flags) (cs : List Char) :
    setHead? flags cs =
      let sign := setSign flags.verbose (skip flags.verbose cs)
      let dashes := leadingDashes flags.verbose sign.2.length {} sign.2
      headItem? flags sign.1 dashes.1 dashes.2 :=
  rfl

/-- The same head is read, and what is left is shorter than `bound`. -/
def HeadAgree (bound : Nat) (x y : Bool × Items × List Char) : Prop :=
  x.1 = y.1 ∧ Agree bound x.2 y.2

def StuckHead (y : Bool × Items × List Char) : Prop := StuckSet y.2

theorem headItem?_other {negated : Bool} {items : Items} (other : c ≠ ']') :
    headItem? flags negated items (c :: cs) = some (negated, items, c :: cs) := by
  unfold headItem?
  split
  · next same => cases same
  · next same => exact absurd (List.cons.inj same).1 other
  · rfl

theorem headItem?_bracket {negated : Bool} {items : Items} (none : items.count = 0) :
    headItem? flags negated items (']' :: cs) =
      if skip flags.verbose cs = [] then .none
      else some (negated, items.push ⟨CodeSet.singleton ']'.toNat, 0⟩, skip flags.verbose cs) := by
  change (if items.count = 0 then _ else _) = _
  rw [if_pos none]
  cases skip flags.verbose cs with
  | nil => rfl
  | cons => rfl

theorem headItem?_follows {negated : Bool} {items : Items} (behind : Behind cs cs') :
    Follows (HeadAgree (cs.length + 1)) StuckHead (headItem? flags negated items cs)
      (headItem? flags negated items cs') := by
  cases cs with
  | nil =>
    rcases behind.of_nil with rfl | rfl
    · exact .stuck (.inr rfl)
    · exact .none
  | cons c cs =>
    obtain ⟨rest, rfl, inner⟩ := behind.of_cons
    have whole : (c :: cs).length < (c :: cs).length + 1 := Nat.lt_succ_self _
    by_cases bracket : c = ']'
    · subst bracket
      by_cases none : items.count = 0
      · have after := inner.skip flags.verbose
        have most := length_skip_le flags.verbose cs
        rw [headItem?_bracket none, headItem?_bracket none]
        generalize skip flags.verbose cs = left at after most
        generalize skip flags.verbose rest = left' at after
        cases left with
        | nil =>
          rw [if_pos rfl]
          rcases after.of_nil with rfl | rfl
          · exact .stuck (.inr rfl)
          · exact .none
        | cons d left =>
          obtain ⟨left', rfl, -⟩ := after.of_cons
          rw [if_neg (List.cons_ne_nil _ _), if_neg (List.cons_ne_nil _ _)]
          refine .some ⟨rfl, rfl, after, ?_⟩
          exact Nat.lt_trans (Nat.lt_succ_of_le most) whole
      · have kept (rest : List Char) : headItem? flags negated items (']' :: rest) =
            some (negated, items, ']' :: rest) := if_neg none
        rw [kept, kept]
        exact .some ⟨rfl, rfl, behind, whole⟩
    · rw [headItem?_other bracket, headItem?_other bracket]
      exact .some ⟨rfl, rfl, behind, whole⟩

theorem setSign_plain (noCaret : cs.head? ≠ some '^') : setSign verbose cs = (false, cs) := by
  unfold setSign
  split
  · exact absurd rfl noCaret
  · rfl

theorem setSign_follows (verbose : Bool) (behind : Behind cs cs') :
    (setSign verbose cs).1 = (setSign verbose cs').1 ∧
      Behind (setSign verbose cs).2 (setSign verbose cs').2 ∧
      (setSign verbose cs).2.length ≤ cs.length := by
  by_cases caret : cs.head? = some '^'
  · obtain ⟨cs, rfl⟩ := List.head?_eq_some_iff.mp caret
    obtain ⟨rest, rfl, inner⟩ := behind.of_cons
    exact ⟨rfl, inner.skip verbose, Nat.le_succ_of_le (length_skip_le verbose cs)⟩
  · rw [setSign_plain caret, setSign_plain (mt (behind.head?_iff (by decide)).mpr caret)]
    exact ⟨rfl, behind, Nat.le_refl _⟩

theorem setHead?_follows (flags : Flags) (behind : Behind cs cs') :
    Follows (HeadAgree (cs.length + 1)) StuckHead (setHead? flags cs) (setHead? flags cs') := by
  rw [setHead?_eq, setHead?_eq]
  have most := length_skip_le flags.verbose cs
  obtain ⟨same, after, mostSign⟩ :=
    setSign_follows flags.verbose (behind.skip flags.verbose)
  obtain ⟨sameItems, afterDashes, mostDashes⟩ :=
    leadingDashes_follows flags.verbose after {} _ _ (Nat.le_refl _) (Nat.le_refl _)
  change Follows _ _ (headItem? flags _ _ _) (headItem? flags _ _ _)
  rw [same, sameItems]
  refine (headItem?_follows afterDashes).mono ?_ fun y => id
  exact fun x y agree => ⟨agree.1, agree.2.mono (by omega)⟩

end ApiContract.Regex

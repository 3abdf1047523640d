import ApiContract.Proofs.Regex.Ending

/-!
Reading escapes with the ending behind the text.

An escape is read only with the ending when a backslash is the last character, which then escapes
the parenthesis, and when braces without a name follow a word boundary.
-/

namespace ApiContract.Regex

open Unicode

variable {c : Char} {cs cs' rest rest' : List Char} {bound : Nat} {verbose : Bool} {flags : Flags}

theorem hexNumber?_of_mem {ds : List Char} (isChar : ')' ∈ ds) : Text.hexNumber? ds = none := by
  obtain ⟨before, after, rfl⟩ := List.append_of_mem isChar
  have noDigit : Text.hexValue? ')' = none := by decide
  rw [Text.hexNumber?, List.foldlM_append]
  cases before.foldlM (fun n c => (Text.hexValue? c).map (16 * n + ·)) 0 with
  | none => rfl
  | some n => simp [noDigit]

theorem hexEscape?_fixed {width : Nat} (some : 0 < width) (noBrace : cs.head? ≠ .some '\x7b') :
    hexEscape? verbose width cs =
      let digits := hexEscape?.gatherFixed verbose width cs
      if digits.1.length = width then
        ((Text.hexNumber? digits.1).bind scalar?).map fun n => (.literal n (width = 2), digits.2)
      else none := by
  cases cs with
  | nil =>
    obtain ⟨width, rfl⟩ := Nat.exists_eq_add_of_le' some
    rfl
  | cons c cs =>
    rw [hexEscape?]
    · rintro ⟨⟩
    · rintro _ ⟨⟩
      exact noBrace rfl

theorem hexEscape?_braced {width : Nat} :
    hexEscape? verbose width ('\x7b' :: cs) =
      let digits := gatherWhile verbose (fun c => c ≠ '\x7d') (cs.length + 1) (skip verbose cs)
      if digits.2 = [] ∨ digits.1 = [] then none
      else
        ((Text.hexNumber? digits.1).bind scalar?).map fun n =>
          (.literal n false, advance verbose digits.2) := by
  rw [hexEscape?]
  simp only [advance, List.drop_succ_cons, List.drop_zero, List.length_cons]
  generalize gatherWhile verbose _ _ _ = digits
  obtain ⟨got, rest⟩ := digits
  cases rest with
  | nil => simp
  | cons => simp

theorem hexEscape?_follows {width : Nat} (some : 0 < width) (behind : Behind cs cs') :
    Follows (Agree (cs.length + 1)) Never (hexEscape? verbose width cs)
      (hexEscape? verbose width cs') := by
  by_cases brace : cs.head? = .some '\x7b'
  · obtain ⟨cs, rfl⟩ := List.head?_eq_some_iff.mp brace
    obtain ⟨rest, rfl, inner⟩ := behind.of_cons
    have shorter := length_skip_le verbose cs
    have shorterToo := length_skip_le verbose rest
    rw [hexEscape?_braced, hexEscape?_braced]
    have both := gathers verbose (fun c => c ≠ '\x7d') rfl (inner.skip verbose) (cs.length + 1)
      (rest.length + 1) (by omega) (by omega)
    generalize gatherWhile verbose _ (cs.length + 1) _ = x at both
    generalize gatherWhile verbose _ (rest.length + 1) _ = y at both
    cases both with
    | @same got left left' some behind most =>
      cases left with
      | nil => exact absurd rfl (some rfl)
      | cons d left =>
        obtain ⟨left', rfl, -⟩ := behind.of_cons
        have shorter := length_advance_lt verbose d left
        simp only [List.cons_ne_nil, false_or]
        split_ifs
        · exact .none
        · refine .map_same fun n => ⟨rfl, behind.advance verbose, ?_⟩
          have whole : ('\x7b' :: cs).length = cs.length + 1 := rfl
          apply Nat.lt_of_lt_of_le shorter
          omega
    | all => simpa using .none
  · have stillNot := mt (behind.head?_iff (by decide)).mpr brace
    rw [hexEscape?_fixed some brace, hexEscape?_fixed some stillNot]
    have both := takes verbose width behind
    generalize hexEscape?.gatherFixed verbose width cs = x at both
    generalize hexEscape?.gatherFixed verbose width cs' = y at both
    cases both with
    | same behind most =>
      simp only
      split_ifs
      · exact .map_same fun n => ⟨rfl, behind, Nat.lt_succ_of_le most⟩
      · exact .none
    | short notAll hasEnd =>
      simp only [if_neg notAll]
      split_ifs with all
      · rw [hexNumber?_of_mem (hasEnd all)]
        exact .none
      · exact .none

theorem namedSet?_end : namedSet? [')'] = none := by
  decide +kernel

def propertySet (flags : Flags) (negated : Bool) (s : CodeSet) (flip : Bool) (rest : List Char) :
    Option (Escape × List Char) :=
  if flags.unicode then some (.set (foldAndNegate flags (negated != flip) s), rest) else none

theorem propertyEscape?_braced {negated : Bool} :
    propertyEscape? flags negated ('\x7b' :: cs) =
      let name := gatherWhile flags.verbose (fun c => c ≠ '\x7d') (cs.length + 1)
        (skip flags.verbose cs)
      if name.2 = [] then none
      else (bracedSet? name.1).bind fun found =>
        propertySet flags negated found.1 found.2 (name.2.drop 1) := by
  unfold propertyEscape?
  simp only [advance, List.drop_succ_cons, List.drop_zero, List.length_cons]
  generalize gatherWhile flags.verbose _ _ _ = name
  obtain ⟨got, rest⟩ := name
  cases rest with
  | nil => rfl
  | cons => rfl

theorem propertyEscape?_named {negated : Bool} (noBrace : c ≠ '\x7b') (noEscape : c ≠ '\\') :
    propertyEscape? flags negated (c :: cs) =
      (namedSet? [c]).bind fun s => propertySet flags negated s false (skip flags.verbose cs) := by
  unfold propertyEscape?
  dsimp only
  split
  · next same => cases same
  · next same => exact absurd (List.cons.inj same).1 noBrace
  · next same => exact absurd (List.cons.inj same).1 noEscape
  · next same =>
    cases same
    rfl

theorem propertySet_follows {negated : Bool} (s : CodeSet) (flip : Bool)
    (behind : Behind rest rest') (shorter : rest.length < bound) :
    Follows (Agree bound) Never (propertySet flags negated s flip rest)
      (propertySet flags negated s flip rest') := by
  unfold propertySet
  split_ifs
  · exact .some ⟨rfl, behind, shorter⟩
  · exact .none

theorem propertyEscape?_follows {negated : Bool} (behind : Behind cs cs') :
    Follows (Agree (cs.length + 1)) Never (propertyEscape? flags negated cs)
      (propertyEscape? flags negated cs') := by
  cases cs with
  | nil =>
    rcases behind.of_nil with rfl | rfl
    · rw [ending, propertyEscape?_named (by decide) (by decide), namedSet?_end, Option.bind_none]
      exact .none
    · exact .none
  | cons c cs =>
    obtain ⟨rest, rfl, inner⟩ := behind.of_cons
    have shorter := length_skip_le flags.verbose cs
    have shorterToo := length_skip_le flags.verbose rest
    by_cases brace : c = '\x7b'
    · subst brace
      rw [propertyEscape?_braced, propertyEscape?_braced]
      have both := gathers flags.verbose (fun c => c ≠ '\x7d') rfl (inner.skip flags.verbose)
        (cs.length + 1) (rest.length + 1) (by omega) (by omega)
      generalize gatherWhile flags.verbose _ (cs.length + 1) _ = x at both
      generalize gatherWhile flags.verbose _ (rest.length + 1) _ = y at both
      cases both with
      | @same got left left' some behind most =>
        cases left with
        | nil => exact absurd rfl (some rfl)
        | cons d left =>
          obtain ⟨left', rfl, tail⟩ := behind.of_cons
          rw [List.length_cons] at most
          refine .bind_same fun found => propertySet_follows found.1 found.2 tail ?_
          change left.length < cs.length + 1 + 1
          omega
      | all => exact .none
    by_cases escape : c = '\\'
    · subst escape
      exact .none
    · rw [propertyEscape?_named brace escape, propertyEscape?_named brace escape]
      refine .bind_same fun s => propertySet_follows s false (inner.skip flags.verbose) ?_
      rw [List.length_cons]
      omega

def boundary? (flags : Flags) (cs : List Char) : Option (Escape × List Char) :=
  match cs with
  | '\x7b' :: _ =>
    (boundaryName? flags cs).map fun
      | some (l, tail) => (.look l, tail)
      | none => (.look (.word flags.unicode), cs)
  | _ => some (.look (.word flags.unicode), cs)

/-- What is left where an escape is read only with the ending: the end of the text, behind a
backslash, or braces without a name. -/
def StuckEscape (flags : Flags) (y : Escape × List Char) : Prop :=
  y.2 = ['$'] ∨
    (∃ l, y.1 = .look l) ∧ ∃ rest, y.2 = '\x7b' :: rest ∧ skip flags.verbose rest = ending

def boundaryLook? (flags : Flags) (name : String) : Option Look :=
  match name with
  | "start" => some (.wordStart flags.unicode)
  | "end" => some (.wordEnd flags.unicode)
  | "start-half" => some (.wordStartHalf flags.unicode)
  | "end-half" => some (.wordEndHalf flags.unicode)
  | _ => none

def isBoundaryChar (c : Char) : Bool := c.isAlpha || c = '-'

theorem boundaryName?_of_used (inner : skip flags.verbose cs = []) :
    boundaryName? flags ('\x7b' :: cs) = none := by
  simp [boundaryName?, advance, inner]

theorem boundaryName?_of_unnamed {name : List Char} (inner : skip flags.verbose cs = c :: name)
    (notName : isBoundaryChar c = false) : boundaryName? flags ('\x7b' :: cs) = some none := by
  have unnamed : (c.isAlpha || decide (c = '-')) = false := notName
  unfold boundaryName?
  simp only [advance, List.drop_succ_cons, List.drop_zero, inner, unnamed, Bool.not_false, if_true]

theorem boundaryName?_of_named {name : List Char} (inner : skip flags.verbose cs = c :: name)
    (isName : isBoundaryChar c = true) :
    boundaryName? flags ('\x7b' :: cs) =
      let name := gatherWhile flags.verbose isBoundaryChar (cs.length + 1) (c :: name)
      if name.2.head? = some '\x7d' then
        (boundaryLook? flags (String.ofList name.1)).map fun l => some (l, name.2.drop 1)
      else none := by
  have named : (c.isAlpha || decide (c = '-')) = true := isName
  have test : (fun c : Char => c.isAlpha || decide (c = '-')) = isBoundaryChar := rfl
  unfold boundaryName?
  simp only [advance, List.drop_succ_cons, List.drop_zero, List.length_cons, inner, named,
    Bool.not_true, Bool.false_eq_true, if_false, test]
  generalize gatherWhile flags.verbose isBoundaryChar (cs.length + 1) (c :: name) = got
  obtain ⟨got, left⟩ := got
  cases left with
  | nil => rfl
  | cons d left =>
    by_cases closes : d = '\x7d'
    · subst closes
      simp only [List.head?_cons, if_true, boundaryLook?]
      split <;> simp [*]
    · simp [closes]

/-- The names of boundaries with and without the ending. -/
inductive Bounds (cs : List Char) :
    Option (Look × List Char) → Option (Look × List Char) → Prop
  | unnamed : Bounds cs none none
  | named {l : Look} {tail tail' : List Char} :
      Behind tail tail' → tail.length ≤ cs.length → Bounds cs (some (l, tail)) (some (l, tail'))

theorem boundaryName?_follows (behind : Behind cs rest) :
    Follows (Bounds cs) (fun y => y = none ∧ skip flags.verbose rest = ending)
      (boundaryName? flags ('\x7b' :: cs)) (boundaryName? flags ('\x7b' :: rest)) := by
  have shorter := length_skip_le flags.verbose cs
  have shorterToo := length_skip_le flags.verbose rest
  have inner := behind.skip flags.verbose
  cases left : skip flags.verbose cs with
  | nil =>
    rw [left] at inner
    rw [boundaryName?_of_used left]
    rcases inner.of_nil with left' | left'
    · rw [boundaryName?_of_unnamed left' rfl]
      exact .stuck ⟨rfl, left'⟩
    · rw [boundaryName?_of_used left']
      exact .none
  | cons c name =>
    rw [left] at inner shorter
    obtain ⟨name', left', -⟩ := inner.of_cons
    rw [left'] at inner shorterToo
    cases isName : isBoundaryChar c with
    | false =>
      rw [boundaryName?_of_unnamed left isName, boundaryName?_of_unnamed left' isName]
      exact .some .unnamed
    | true =>
      rw [boundaryName?_of_named left isName, boundaryName?_of_named left' isName]
      have both := gathers flags.verbose isBoundaryChar rfl inner (cs.length + 1) (rest.length + 1)
        (by omega) (by omega)
      generalize gatherWhile flags.verbose _ (cs.length + 1) _ = x at both
      generalize gatherWhile flags.verbose _ (rest.length + 1) _ = y at both
      cases both with
      | all takes => cases takes
      | @same got tail tail' _ behind most =>
        by_cases closes : tail.head? = some '\x7d'
        · obtain ⟨tail, rfl⟩ := List.head?_eq_some_iff.mp closes
          obtain ⟨tail', rfl, after⟩ := behind.of_cons
          rw [List.length_cons] at most
          exact .map_same fun l => .named after (by change tail.length ≤ cs.length; omega)
        · simp only [if_neg closes,
            if_neg (mt (behind.head?_iff (by decide)).mpr closes)]
          exact .none

theorem boundary?_plain (noBrace : cs.head? ≠ some '\x7b') :
    boundary? flags cs = some (.look (.word flags.unicode), cs) := by
  unfold boundary?
  split
  · exact absurd rfl noBrace
  · rfl

theorem boundary?_follows (behind : Behind cs cs') :
    Follows (Agree (cs.length + 1)) (StuckEscape flags) (boundary? flags cs)
      (boundary? flags cs') := by
  by_cases brace : cs.head? = some '\x7b'
  · obtain ⟨cs, rfl⟩ := List.head?_eq_some_iff.mp brace
    obtain ⟨rest, rfl, inner⟩ := behind.of_cons
    refine (boundaryName?_follows inner).map ?_ ?_
    · rintro _ _ (_ | @⟨l, tail, tail', after, most⟩)
      · exact ⟨rfl, behind, Nat.lt_succ_self _⟩
      · exact ⟨rfl, after, Nat.lt_succ_of_le (Nat.le_succ_of_le most)⟩
    · rintro _ ⟨rfl, isEnd⟩
      exact .inr ⟨⟨_, rfl⟩, rest, rfl, isEnd⟩
  · rw [boundary?_plain brace, boundary?_plain (mt (behind.head?_iff (by decide)).mpr brace)]
    exact .some ⟨rfl, behind, Nat.lt_succ_self _⟩

theorem escape?_forms (flags : Flags) (c : Char) :
    (∀ rest, escape? flags (c :: rest) = none) ∨
      (∃ e, ∀ rest, escape? flags (c :: rest) = some (e, rest)) ∨
      (∃ width, 0 < width ∧ ∀ rest,
        escape? flags (c :: rest) = hexEscape? flags.verbose width (skip flags.verbose rest)) ∨
      (∃ negated, ∀ rest,
        escape? flags (c :: rest) = propertyEscape? flags negated (skip flags.verbose rest)) ∨
      ∀ rest, escape? flags (c :: rest) = boundary? flags rest := by
  by_cases digit : c.isDigit = true
  · exact .inl fun rest => if_pos digit
  by_cases hex : c ∈ ['x', 'u', 'U']
  · simp only [List.mem_cons, List.not_mem_nil, or_false] at hex
    rcases hex with rfl | rfl | rfl
    · exact .inr (.inr (.inl ⟨2, by decide, fun _ => rfl⟩))
    · exact .inr (.inr (.inl ⟨4, by decide, fun _ => rfl⟩))
    · exact .inr (.inr (.inl ⟨8, by decide, fun _ => rfl⟩))
  by_cases property : c ∈ ['p', 'P']
  · simp only [List.mem_cons, List.not_mem_nil, or_false] at property
    rcases property with rfl | rfl
    · exact .inr (.inr (.inr (.inl ⟨false, fun _ => rfl⟩)))
    · exact .inr (.inr (.inr (.inl ⟨true, fun _ => rfl⟩)))
  by_cases isSet : c ∈ ['d', 's', 'w', 'D', 'S', 'W']
  · have complement {c : Char} (reads : ∀ rest, escape? flags (c :: rest) =
        if flags.unicode then some (.set (perlSet flags c.toLower).complement, rest) else none) :
        (∀ rest, escape? flags (c :: rest) = none) ∨
          ∃ e, ∀ rest, escape? flags (c :: rest) = some (e, rest) := by
      cases unicode : flags.unicode with
      | false => exact .inl fun rest => by rw [reads, unicode, if_neg Bool.false_ne_true]
      | true => exact .inr ⟨_, fun rest => by rw [reads, unicode, if_pos rfl]⟩
    simp only [List.mem_cons, List.not_mem_nil, or_false] at isSet
    rcases isSet with rfl | rfl | rfl | rfl | rfl | rfl
    · exact .inr (.inl ⟨_, fun _ => rfl⟩)
    · exact .inr (.inl ⟨_, fun _ => rfl⟩)
    · exact .inr (.inl ⟨_, fun _ => rfl⟩)
    · exact (complement fun _ => rfl).imp_right .inl
    · exact (complement fun _ => rfl).imp_right .inl
    · exact (complement fun _ => rfl).imp_right .inl
  simp only [List.mem_cons, List.not_mem_nil, or_false, not_or] at hex property isSet
  by_cases escapable : isEscapable c = true
  · refine .inr (.inl ⟨.literal c.toNat false, fun rest => ?_⟩)
    unfold escape?
    simp [digit, hex, property, isSet, escapable]
  by_cases letter : c ∈ ['a', 'f', 't', 'n', 'r', 'v', 'A', 'z', 'B', '<', '>']
  · simp only [List.mem_cons, List.not_mem_nil, or_false] at letter
    rcases letter with rfl | rfl | rfl | rfl | rfl | rfl | rfl | rfl | rfl | rfl | rfl <;>
      exact .inr (.inl ⟨_, fun _ => rfl⟩)
  by_cases isBound : c = 'b'
  · subst isBound
    exact .inr (.inr (.inr (.inr fun _ => rfl)))
  · refine .inl fun rest => ?_
    simp only [List.mem_cons, List.not_mem_nil, or_false, not_or] at letter
    unfold escape?
    simp [digit, hex, property, isSet, escapable, letter]

theorem escape?_follows (behind : Behind cs cs') :
    Follows (Agree (cs.length + 1)) (StuckEscape flags) (escape? flags cs)
      (escape? flags cs') := by
  cases cs with
  | nil =>
    rcases behind.of_nil with rfl | rfl
    · exact .stuck (.inl rfl)
    · exact .none
  | cons c cs =>
    obtain ⟨rest, rfl, inner⟩ := behind.of_cons
    have shorter := length_skip_le flags.verbose cs
    rcases escape?_forms flags c with fails | ⟨e, reads⟩ | ⟨width, some, reads⟩ |
      ⟨negated, reads⟩ | reads
    · rw [fails, fails]
      exact .none
    · rw [reads, reads]
      exact .some ⟨rfl, inner, Nat.lt_succ_of_lt (Nat.lt_succ_self _)⟩
    · rw [reads, reads]
      apply (hexEscape?_follows some (inner.skip flags.verbose)).of_never.widen
      rw [List.length_cons]
      omega
    · rw [reads, reads]
      apply (propertyEscape?_follows (inner.skip flags.verbose)).of_never.widen
      rw [List.length_cons]
      omega
    · rw [reads, reads]
      exact (boundary?_follows inner).widen (Nat.le_succ _)

end ApiContract.Regex

import ApiContract.Proofs.Regex.Items

/-!
Reading bracketed sets with the ending behind the text.

The ending holds no bracket, so a set that is not closed without it is not closed with it.
-/

namespace ApiContract.Regex

open Unicode

variable {c : Char} {cs cs' rest rest' : List Char} {bound : Nat} {verbose : Bool} {flags : Flags}

def operatorOf? (c : Char) : Option SetOperator :=
  if c = '&' then some .intersection
  else if c = '-' then some .difference
  else if c = '~' then some .symmetricDifference
  else none

/-- An operator between two parts of a set, and what stands behind it. -/
def setOperator? (cs : List Char) : Option (SetOperator × List Char) :=
  match cs with
  | c :: d :: rest => if c = d then (operatorOf? c).map fun op => (op, rest) else none
  | _ => none

theorem setOperator?_follows (behind : Behind cs cs') :
    Follows (Agree cs.length) Never (setOperator? cs) (setOperator? cs') := by
  cases behind with
  | hidden => exact .none
  | shown =>
    rcases cs with _ | ⟨c, _ | ⟨d, cs⟩⟩
    · exact .none
    · have noOperator : setOperator? (c :: ending) = none := by
        rw [ending, setOperator?]
        split_ifs with same
        · rw [same]
          rfl
        · rfl
      rw [List.singleton_append, noOperator]
      exact .none
    · rw [List.cons_append, List.cons_append, setOperator?, setOperator?]
      split_ifs
      · exact .map_same fun op => ⟨rfl, .shown cs, Nat.lt_succ_of_lt (Nat.lt_succ_self _)⟩
      · exact .none

theorem setOperator?_eq_none
    (plain : ∀ c tail, (operatorOf? c).isSome → cs ≠ c :: c :: tail) : setOperator? cs = none := by
  unfold setOperator?
  split
  · next c d tail =>
    split_ifs with same
    · subst same
      cases isOperator : operatorOf? c with
      | none => rfl
      | some op => exact absurd rfl (plain c tail (by rw [isOperator]; rfl))
    · rfl
  · rfl

/-- Reading goes on behind a part of a set, with the frames and items that stand in front. -/
abbrev Next := List SetFrame → Items → List Char → Option (Part × List Char)

def closeSet? (flags : Flags) (next : Next) (frames : List SetFrame) (items : Items)
    (rest : List Char) : Option (Part × List Char) :=
  match closeOperators flags items.part frames with
  | (p, .enclosing outer negated :: frames) =>
    let closed : Part := ⟨foldAndNegate flags negated p.set, p.depth + 1⟩
    if frames.isEmpty then some (closed, rest) else next frames (outer.push closed) rest
  | _ => none

/-- One step through the body of a set: a nested set, a bracket, an operator, or a range. -/
def setStep? (flags : Flags) (next : Next) (frames : List SetFrame) (items : Items)
    (cs : List Char) : Option (Part × List Char) :=
  if cs.head? = some '[' then
    match posixItem? flags cs with
    | some x => next frames (items.push x.1) x.2
    | none =>
      (setHead? flags cs.tail).bind fun x => next (.enclosing items x.1 :: frames) x.2.1 x.2.2
  else if cs.head? = some ']' then closeSet? flags next frames items cs.tail
  else
    match setOperator? cs with
    | some x =>
      let operand := closeOperators flags items.part frames
      next (.operator x.1 operand.1 :: operand.2) {} x.2
    | none => (setRange? flags cs).bind fun x => next frames (items.push x.1) x.2

variable {fuel : Nat} {frames : List SetFrame} {items : Items}

theorem setRest?_succ :
    setRest? flags (fuel + 1) frames items cs =
      let rest := skip flags.verbose cs
      if rest = [] then none
      else setStep? flags (setRest? flags fuel) frames items rest := by
  conv => lhs; unfold setRest?
  generalize skip flags.verbose cs = rest
  dsimp only
  split
  · rfl
  · next rest =>
    have opens : ('[' :: rest).head? = some '[' := rfl
    rw [if_neg (List.cons_ne_nil _ _), setStep?, if_pos opens]
    cases posixItem? flags ('[' :: rest) with
    | none => rfl
    | some x => rfl
  · rfl
  · rw [setRest?.openOperator]
    rfl
  · rw [setRest?.openOperator]
    rfl
  · rw [setRest?.openOperator]
    rfl
  · next used opens closes both minus tilde =>
    have noOperator : setOperator? rest = none := by
      apply setOperator?_eq_none
      rintro c tail isOperator rfl
      unfold operatorOf? at isOperator
      split_ifs at isOperator with isBoth isMinus isTilde
      · exact both tail (by rw [isBoth])
      · exact minus tail (by rw [isMinus])
      · exact tilde tail (by rw [isTilde])
      · cases isOperator
    rw [if_neg used, setStep?, if_neg (head?_ne_some opens), if_neg (head?_ne_some closes),
      noOperator]

theorem closeSet?_follows {next next' : Next} (inner : Behind rest rest')
    (shorter : rest.length < bound)
    (later : ∀ frames items, Follows (Agree bound) Never (next frames items rest)
      (next' frames items rest')) :
    Follows (Agree bound) Never (closeSet? flags next frames items rest)
      (closeSet? flags next' frames items rest') := by
  unfold closeSet?
  split
  · split_ifs
    · exact .some ⟨rfl, inner, shorter⟩
    · exact later _ _
  · exact .none

theorem setRange?_dollar : setRange? flags ['$'] = none := by
  rw [setRange?_eq, setItem?_literal (by decide), Option.bind_some, skip_nil]
  rfl

theorem eq_of_setRange?_ending {x : Part × List Char} (reads : setRange? flags ending = some x) :
    x.2 = ['$'] := by
  have left : skip flags.verbose ['$'] = ['$'] := skip_cons rfl (by decide)
  have alone : StandsAlone flags.verbose ['$'] := .inl (by decide)
  rw [setRange?_eq, ending, setItem?_literal (by decide), Option.bind_some, left] at reads
  dsimp only at reads
  rw [if_neg (List.cons_ne_nil _ _), if_pos alone] at reads
  obtain ⟨p, -, rfl⟩ := Option.map_eq_some_iff.mp reads
  rfl

theorem setStep?_range {next : Next} (noOpen : c ≠ '[') (noClose : c ≠ ']')
    (noOperator : setOperator? (c :: cs) = none) :
    setStep? flags next frames items (c :: cs) =
      (setRange? flags (c :: cs)).bind fun x => next frames (items.push x.1) x.2 := by
  rw [setStep?, if_neg (by simpa using noOpen), if_neg (by simpa using noClose), noOperator]

/-- Where nothing but the ending is left, no set is closed. -/
theorem setRest?_dollar : setRest? flags fuel frames items ['$'] = none := by
  cases fuel with
  | zero => rw [setRest?]
  | succ fuel =>
    rw [setRest?_succ, skip_cons rfl (by decide)]
    dsimp only
    rw [if_neg (List.cons_ne_nil _ _), setStep?_range (by decide) (by decide) rfl,
      setRange?_dollar, Option.bind_none]

theorem setStep?_ending :
    setStep? flags (setRest? flags fuel) frames items ending = none := by
  rw [ending, setStep?_range (by decide) (by decide) rfl, ← ending]
  cases reads : setRange? flags ending with
  | none => rfl
  | some x => rw [Option.bind_some, eq_of_setRange?_ending reads, setRest?_dollar]

theorem setRest?_ending : setRest? flags fuel frames items ending = none := by
  cases fuel with
  | zero => rw [setRest?]
  | succ fuel =>
    have left : skip flags.verbose ending = ending := skip_cons rfl (by decide)
    have some : ending ≠ [] := List.cons_ne_nil _ _
    rw [setRest?_succ, left]
    dsimp only
    rw [if_neg some, setStep?_ending]

theorem setRest?_stuck {y : α × List Char} (stuck : StuckSet y) :
    setRest? flags fuel frames items y.2 = none := by
  rcases stuck with isEnd | isEnd
  · rw [isEnd, setRest?_dollar]
  · rw [isEnd, setRest?_ending]

/-- A step follows where all that comes behind it does. -/
theorem setStep?_follows {next next' : Next} (behind : Behind (c :: cs) (c :: cs'))
    (later : ∀ {tail tail'}, Behind tail tail' → tail.length ≤ cs.length → ∀ frames items,
      Follows (Agree (cs.length + 1)) Never (next frames items tail) (next' frames items tail'))
    (stuck : ∀ {α : Type} {y : α × List Char}, StuckSet y → ∀ frames items,
      next' frames items y.2 = none) :
    Follows (Agree (cs.length + 1)) Never (setStep? flags next frames items (c :: cs))
      (setStep? flags next' frames items (c :: cs')) := by
  obtain ⟨_, same, inner⟩ := behind.of_cons
  cases same
  by_cases opens : c = '['
  · subst opens
    have named := posixItem?_follows flags behind
    have opens {cs : List Char} : ('[' :: cs).head? = some '[' := rfl
    rw [setStep?, setStep?, if_pos opens, if_pos opens]
    generalize posixItem? flags ('[' :: cs) = x at named
    generalize posixItem? flags ('[' :: cs') = y at named
    cases named with
    | stuck never => exact never.elim
    | @some x y agree =>
      dsimp only
      rw [agree.same]
      exact later agree.behind (Nat.le_of_lt_succ agree.shorter) _ _
    | none =>
      refine (setHead?_follows flags inner).bind ?_ ?_
      · rintro ⟨negated, x⟩ ⟨_, y⟩ ⟨same, agree⟩
        obtain rfl : negated = _ := same
        dsimp only
        rw [agree.same]
        exact later agree.behind (Nat.le_of_lt_succ agree.shorter) _ _
      · intro y isStuck z reads
        rw [stuck isStuck] at reads
        cases reads
  by_cases closes : c = ']'
  · subst closes
    exact closeSet?_follows inner (Nat.lt_succ_self _) (later inner (Nat.le_refl _))
  have operator := setOperator?_follows behind
  have noOpen {cs : List Char} : (c :: cs).head? ≠ some '[' := by simpa using opens
  have noClose {cs : List Char} : (c :: cs).head? ≠ some ']' := by simpa using closes
  rw [setStep?, setStep?, if_neg noOpen, if_neg noOpen, if_neg noClose, if_neg noClose]
  generalize setOperator? (c :: cs) = x at operator
  generalize setOperator? (c :: cs') = y at operator
  cases operator with
  | stuck never => exact never.elim
  | @some x y agree =>
    dsimp only
    rw [agree.same]
    exact later agree.behind (Nat.le_of_lt_succ agree.shorter) _ _
  | none =>
    refine (setRange?_follows behind).bind ?_ ?_
    · intro x y agree
      rw [agree.same]
      exact later agree.behind (Nat.le_of_lt_succ agree.shorter) _ _
    · intro y isStuck z reads
      rw [stuck isStuck] at reads
      cases reads

theorem setRest?_follows (flags : Flags) (frames : List SetFrame) (items : Items)
    (behind : Behind cs cs') (fuel fuel' : Nat) (enough : cs.length < fuel)
    (enough' : cs'.length < fuel') :
    Follows (Agree cs.length) Never (setRest? flags fuel frames items cs)
      (setRest? flags fuel' frames items cs') := by
  induction fuel generalizing cs cs' fuel' frames items with
  | zero => cases enough
  | succ fuel ih =>
    obtain ⟨fuel', rfl⟩ := Nat.exists_eq_add_of_le' (Nat.zero_lt_of_lt enough')
    have after := behind.skip flags.verbose
    have most := length_skip_le flags.verbose cs
    have most' := length_skip_le flags.verbose cs'
    rw [setRest?_succ, setRest?_succ]
    generalize skip flags.verbose cs = left at after most
    generalize skip flags.verbose cs' = left' at after most'
    cases left with
    | nil =>
      rcases after.of_nil with rfl | rfl
      · have some : ending ≠ [] := List.cons_ne_nil _ _
        dsimp only
        rw [if_neg some, setStep?_ending]
        exact .none
      · exact .none
    | cons c left =>
      obtain ⟨left', rfl, inner⟩ := after.of_cons
      dsimp only
      rw [if_neg (List.cons_ne_nil _ _), if_neg (List.cons_ne_nil _ _)]
      refine (setStep?_follows after ?_ ?_).widen most
      · intro tail tail' behindTail shorter frames items
        have shorterToo := after.length_lt behindTail (Nat.lt_succ_of_le shorter)
        rw [List.length_cons] at most
        exact (ih frames items behindTail fuel' (by omega) (by omega)).widen (by omega)
      · intro α y isStuck frames items
        exact setRest?_stuck isStuck

theorem bracketed?_follows (behind : Behind cs cs') :
    Follows (Agree (cs.length + 1)) Never (bracketed? flags cs) (bracketed? flags cs') := by
  have head := setHead?_follows flags behind
  unfold bracketed?
  cases behind with
  | hidden =>
    have used : setHead? flags [] = none := by
      rw [setHead?_eq, skip_nil]
      rfl
    rw [used]
    exact .none
  | shown =>
    refine head.bind ?_ ?_
    · rintro ⟨negated, items, tail⟩ ⟨_, _, tail'⟩ ⟨same, ⟨sameItems, behind, shorter⟩⟩
      obtain rfl : negated = _ := same
      obtain rfl : items = _ := sameItems
      have most := behind.length_le_add
      dsimp only at behind shorter most ⊢
      have shorterToo : tail'.length < (cs ++ ending).length + 1 := by
        rw [List.length_append]
        omega
      have body := setRest?_follows flags [.enclosing {} negated] items behind (cs.length + 1)
        ((cs ++ ending).length + 1) shorter shorterToo
      refine body.bind ?_ fun y never => never.elim
      rintro ⟨p, rest⟩ ⟨_, rest'⟩ ⟨same, behind, shorter⟩
      obtain rfl : p = _ := same
      dsimp only at behind shorter ⊢
      split_ifs
      · exact .some ⟨rfl, behind, by dsimp only; omega⟩
      · exact .none
    · rintro ⟨negated, items, tail⟩ isStuck z reads
      dsimp only at reads
      rw [setRest?_stuck isStuck] at reads
      cases reads

end ApiContract.Regex

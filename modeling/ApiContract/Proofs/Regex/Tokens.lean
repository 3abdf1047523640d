import ApiContract.Proofs.Regex.Sets
import ApiContract.Regex.Token

/-!
Reading tokens with the ending behind the text.

A token is read only with the ending when a backslash is the last character, when flags are set and
the parenthesis of the ending closes them, and when braces without a name follow a word boundary.
What is left then closes no group.
-/

namespace ApiContract.Regex

open Unicode

variable {c : Char} {cs cs' rest rest' : List Char} {bound : Nat} {verbose : Bool} {flags : Flags}

def nameText? (name : List Char) : Option String :=
  match name with
  | [] => none
  | c :: more =>
    if isNameChar true c ∧ more.all (isNameChar false) then some (String.ofList (c :: more))
    else none

theorem groupName?_of_not_mem (noAngle : '>' ∉ cs) : groupName? cs = none := by
  rw [groupName?, dropWhile_ne_eq_nil noAngle]
  cases cs.takeWhile (· ≠ '>') <;> rfl

theorem groupName?_of_name {name tail : List Char} (isName : '>' ∉ name) :
    groupName? (name ++ '>' :: tail) = (nameText? name).map fun text => (text, tail) := by
  rw [groupName?, dropWhile_ne_append isName, takeWhile_ne_append isName]
  cases name with
  | nil => rfl
  | cons c more =>
    simp only [nameText?]
    split_ifs <;> rfl

theorem groupName?_follows (behind : Behind cs cs') :
    Follows (Agree cs.length) Never (groupName? cs) (groupName? cs') := by
  cases behind with
  | hidden => exact .none
  | shown =>
    by_cases isChar : '>' ∈ cs
    · obtain ⟨name, tail, rfl, isName⟩ := List.eq_append_cons_of_mem isChar
      rw [List.append_assoc, List.cons_append, groupName?_of_name isName,
        groupName?_of_name isName]
      refine .map_same fun text => ⟨rfl, .shown tail, ?_⟩
      simp
      omega
    · have stillNot := not_mem_append_ending isChar (by decide)
      rw [groupName?_of_not_mem isChar, groupName?_of_not_mem stillNot]
      exact .none

/-- What is read of flag letters only with the ending: its parenthesis closes them. -/
def StuckLetters (y : Flags × Bool × List Char) : Prop := y.2.2 = ending

/-- The same flags are read up to a colon or a parenthesis, which is left. -/
def LettersAgree (bound : Nat) (x y : Flags × Bool × List Char) : Prop :=
  x.1 = y.1 ∧ x.2.1 = y.2.1 ∧ ∃ c rest rest', x.2.2 = c :: rest ∧ y.2.2 = c :: rest' ∧
    Behind rest rest' ∧ rest.length < bound

theorem flagLetters?_follows {seen : List Char} {on : Bool} (behind : Behind cs cs') :
    Follows (LettersAgree cs.length) StuckLetters (flagLetters? seen on flags cs)
      (flagLetters? seen on flags cs') := by
  induction cs generalizing cs' seen on flags with
  | nil =>
    rcases behind.of_nil with rfl | rfl
    · rw [ending, flagLetters?, flagLetters?]
      simp only [or_true, if_true]
      split_ifs
      · exact .none
      · exact .stuck rfl
    · exact .none
  | cons c cs ih =>
    obtain ⟨rest, rfl, inner⟩ := behind.of_cons
    have later {x y : Flags × Bool × List Char} (agree : LettersAgree cs.length x y) :
        LettersAgree (c :: cs).length x y := by
      obtain ⟨same, sameToo, d, left, left', isLeft, isLeft', after, shorter⟩ := agree
      exact ⟨same, sameToo, d, left, left', isLeft, isLeft', after, Nat.lt_succ_of_lt shorter⟩
    rw [flagLetters?, flagLetters?]
    split_ifs
    · exact .none
    · exact .some ⟨rfl, rfl, c, cs, rest, rfl, rfl, inner, Nat.lt_succ_self _⟩
    · exact .none
    · exact (ih inner).mono (fun x y => later) fun y => id
    · exact .bind_same fun flags => (ih inner).mono (fun x y => later) fun y => id

/-- What is left where a token is read only with the ending: the end of the text, or braces without
a name. -/
def StuckToken (flags : Flags) (y : Token × List Char) : Prop :=
  ((∃ p, y.1 = .piece p) ∨ ∃ inside, y.1 = .setFlags inside) ∧ y.2 = ['$'] ∨
    (∃ p, y.1 = .piece p) ∧ ∃ rest, y.2 = '\x7b' :: rest ∧ skip flags.verbose rest = ending

def namedGroup? (flags : Flags) (cs : List Char) : Option (Token × List Char) :=
  (groupName? cs).map fun x => (.opening flags (some x.1), x.2)

/-- Flag letters set the flags from here on, or open a group inside which they hold. -/
def flagGroup? (flags : Flags) (cs : List Char) : Option (Token × List Char) :=
  (flagLetters? [] true flags cs).bind fun x =>
    if x.2.2.head? = some ')' then
      if x.2.1 then none else some (.setFlags x.1, x.2.2.tail)
    else if x.2.2 = [] then none
    else some (.opening x.1 none, x.2.2.tail)

/-- What opens behind a parenthesis and a question mark. -/
def markedGroup? (flags : Flags) (cs : List Char) : Option (Token × List Char) :=
  if cs.take 2 = ['P', '<'] then namedGroup? flags (cs.drop 2)
  else if cs.head? = some '<' then
    if cs.tail.head? = some '=' ∨ cs.tail.head? = some '!' then none
    else namedGroup? flags cs.tail
  else flagGroup? flags cs

theorem group?_plain (noMark : (skip flags.verbose cs).head? ≠ some '?') :
    group? flags cs = some (.opening flags none, skip flags.verbose cs) := by
  unfold group?
  split
  · next same => exact absurd (by rw [same]; rfl) noMark
  · next same => exact absurd (by rw [same]; rfl) noMark
  · next same => exact absurd (by rw [same]; rfl) noMark
  · next same => exact absurd (by rw [same]; rfl) noMark
  · next same => exact absurd (by rw [same]; rfl) noMark
  · rfl

theorem group?_marked (marked : skip flags.verbose cs = '?' :: rest) :
    group? flags cs = markedGroup? flags rest := by
  unfold group?
  rw [marked]
  split
  · next same =>
    cases same
    rfl
  · next same =>
    cases same
    rfl
  · next same =>
    cases same
    rfl
  · next tail noEqual noMark same =>
    cases same
    have noName : ('<' :: tail).take 2 ≠ ['P', '<'] := by simp
    have noLook : ¬(tail.head? = some '=' ∨ tail.head? = some '!') :=
      not_or.mpr ⟨head?_ne_some noEqual, head?_ne_some noMark⟩
    rw [markedGroup?, if_neg noName, if_pos (by rfl), List.tail_cons, if_neg noLook]
    rfl
  · next noName _ _ noAngle same =>
    cases same
    have other : rest.take 2 ≠ ['P', '<'] := by
      intro named
      exact noName (rest.drop 2) (eq_cons_of_take_two named)
    rw [markedGroup?, if_neg other, if_neg (head?_ne_some noAngle), flagGroup?]
    congr 1
    funext x
    obtain ⟨inside, unchanged, tail⟩ := x
    cases tail with
    | nil => rfl
    | cons c tail =>
      by_cases closes : c = ')'
      · subst closes
        rfl
      · simp [closes]
  · next other => exact absurd rfl (other rest)

theorem flagGroup?_follows (behind : Behind cs cs') :
    Follows (Agree cs.length) (StuckToken flags) (flagGroup? flags cs)
      (flagGroup? flags cs') := by
  refine (flagLetters?_follows behind).bind ?_ ?_
  · rintro ⟨inside, unchanged, left⟩ ⟨_, _, left'⟩ ⟨same, sameToo, d, rest, rest', isLeft, isLeft',
      after, shorter⟩
    obtain rfl : inside = _ := same
    obtain rfl : unchanged = _ := sameToo
    obtain rfl : left = _ := isLeft
    obtain rfl : left' = _ := isLeft'
    simp only [List.head?_cons, Option.some.injEq, List.tail_cons, List.cons_ne_nil, if_false]
    split_ifs
    · exact .none
    · exact .some ⟨rfl, after, shorter⟩
    · exact .some ⟨rfl, after, shorter⟩
  · rintro ⟨inside, unchanged, left⟩ isEnd z reads
    obtain rfl : left = ending := isEnd
    have closes : ending.head? = some ')' := rfl
    dsimp only at reads
    rw [if_pos closes] at reads
    split_ifs at reads
    obtain rfl := Option.some.inj reads
    exact .inl ⟨.inr ⟨inside, rfl⟩, rfl⟩

theorem namedGroup?_follows (behind : Behind cs cs') :
    Follows (Agree cs.length) (StuckToken flags) (namedGroup? flags cs)
      (namedGroup? flags cs') := by
  refine (groupName?_follows behind).map ?_ fun y never => never.elim
  intro x y agree
  exact ⟨by rw [agree.same], agree.behind, agree.shorter⟩

theorem markedGroup?_follows (behind : Behind cs cs') :
    Follows (Agree cs.length) (StuckToken flags) (markedGroup? flags cs)
      (markedGroup? flags cs') := by
  have named := behind.take_two_iff (c := 'P') (d := '<') (by decide) (by decide)
  have angled := behind.head?_iff (c := '<') (by decide)
  unfold markedGroup?
  simp only [← named, ← angled]
  by_cases isNamed : cs.take 2 = ['P', '<']
  · obtain ⟨rest, rfl⟩ : ∃ rest, cs = 'P' :: '<' :: rest := ⟨_, eq_cons_of_take_two isNamed⟩
    obtain ⟨_, rfl, first⟩ := behind.of_cons
    obtain ⟨rest', rfl, inner⟩ := first.of_cons
    rw [if_pos isNamed, if_pos isNamed]
    exact (namedGroup?_follows inner).widen (Nat.le_succ_of_le (Nat.le_succ _))
  rw [if_neg isNamed, if_neg isNamed]
  by_cases isAngled : cs.head? = some '<'
  · obtain ⟨rest, rfl⟩ := List.head?_eq_some_iff.mp isAngled
    obtain ⟨rest', rfl, inner⟩ := behind.of_cons
    have equal := inner.head?_iff (c := '=') (by decide)
    have mark := inner.head?_iff (c := '!') (by decide)
    rw [if_pos isAngled, if_pos isAngled, List.tail_cons, List.tail_cons]
    simp only [← equal, ← mark]
    split_ifs
    · exact .none
    · exact (namedGroup?_follows inner).widen (Nat.le_succ _)
  · rw [if_neg isAngled, if_neg isAngled]
    exact flagGroup?_follows behind

theorem group?_follows (behind : Behind cs cs') :
    Follows (Agree (cs.length + 1)) (StuckToken flags) (group? flags cs) (group? flags cs') := by
  have after := behind.skip flags.verbose
  have most := length_skip_le flags.verbose cs
  by_cases marked : (skip flags.verbose cs).head? = some '?'
  · obtain ⟨rest, isRest⟩ := List.head?_eq_some_iff.mp marked
    rw [isRest] at after most
    obtain ⟨rest', isRest', inner⟩ := after.of_cons
    rw [group?_marked isRest, group?_marked isRest']
    rw [List.length_cons] at most
    exact (markedGroup?_follows inner).widen (by omega)
  · rw [group?_plain marked, group?_plain (mt (after.head?_iff (by decide)).mpr marked)]
    exact .some ⟨rfl, after, Nat.lt_succ_of_le most⟩

theorem dropLazy_plain (noMark : cs.head? ≠ some '?') : dropLazy cs = cs := by
  unfold dropLazy
  split
  · exact absurd rfl noMark
  · rfl

theorem Behind.dropLazy (behind : Behind cs cs') : Behind (dropLazy cs) (dropLazy cs') := by
  by_cases mark : cs.head? = some '?'
  · obtain ⟨rest, rfl⟩ := List.head?_eq_some_iff.mp mark
    obtain ⟨rest', rfl, inner⟩ := behind.of_cons
    exact inner
  · rw [dropLazy_plain mark, dropLazy_plain (mt (behind.head?_iff (by decide)).mpr mark)]
    exact behind

theorem length_dropLazy_le (cs : List Char) : (dropLazy cs).length ≤ cs.length := by
  unfold dropLazy
  split
  · exact Nat.le_succ _
  · exact Nat.le_refl _

theorem count?_eq (verbose : Bool) (cs : List Char) :
    count? verbose cs =
      let digits := gatherWhile verbose Char.isDigit (Text.trimStart cs).length (Text.trimStart cs)
      (if digits.1 = [] ∨ countLimit ≤ Decimal.ofDigits digits.1 then none
        else some (Decimal.ofDigits digits.1), Text.trimStart digits.2) :=
  rfl

theorem count?_follows (verbose : Bool) (behind : Behind cs cs') :
    (count? verbose cs).1 = (count? verbose cs').1 ∧
      Behind (count? verbose cs).2 (count? verbose cs').2 ∧
      (count? verbose cs).2.length ≤ cs.length := by
  have after := behind.trimStart
  have most := length_trimStart_le cs
  have both := gathers verbose Char.isDigit rfl after _ _ (Nat.le_refl _) (Nat.le_refl _)
  rw [count?_eq, count?_eq]
  generalize gatherWhile verbose Char.isDigit (Text.trimStart cs).length _ = x at both
  generalize gatherWhile verbose Char.isDigit (Text.trimStart cs').length _ = y at both
  cases both with
  | all takes => cases takes
  | @same got left left' _ behind mostLeft =>
    have mostTrimmed := length_trimStart_le left
    exact ⟨rfl, behind.trimStart, by dsimp only; omega⟩

def closeCount? (flags : Flags) (least : Nat) (most : Option Nat) (cs : List Char) :
    Option (Token × List Char) :=
  if cs.head? = some '\x7d' then
    some (.repetition least most, dropLazy (skip flags.verbose cs.tail))
  else none

theorem closeCount?_follows {least : Nat} {most : Option Nat} (behind : Behind cs cs') :
    Follows (Agree (cs.length + 1)) Never (closeCount? flags least most cs)
      (closeCount? flags least most cs') := by
  unfold closeCount?
  by_cases closes : cs.head? = some '\x7d'
  · obtain ⟨rest, rfl⟩ := List.head?_eq_some_iff.mp closes
    obtain ⟨rest', rfl, inner⟩ := behind.of_cons
    have shorter := length_dropLazy_le (skip flags.verbose rest)
    have shorterToo := length_skip_le flags.verbose rest
    have closes {rest : List Char} : ('\x7d' :: rest).head? = some '\x7d' := rfl
    rw [if_pos closes, if_pos closes]
    refine .some ⟨rfl, (inner.skip flags.verbose).dropLazy, ?_⟩
    dsimp only [List.tail_cons]
    rw [List.length_cons]
    omega
  · rw [if_neg closes, if_neg (mt (behind.head?_iff (by decide)).mpr closes)]
    exact .none

/-- The greatest count of a repetition, from behind its comma. -/
def greatest? (flags : Flags) (least : Nat) (cs : List Char) : Option (Token × List Char) :=
  if cs.head? = some '\x7d' then closeCount? flags least none cs
  else
    (count? flags.verbose cs).1.bind fun most =>
      if least ≤ most then closeCount? flags least (some most) (count? flags.verbose cs).2
      else none

theorem greatest?_follows {least : Nat} (behind : Behind cs cs') :
    Follows (Agree (cs.length + 1)) Never (greatest? flags least cs)
      (greatest? flags least cs') := by
  have closes := behind.head?_iff (c := '\x7d') (by decide)
  obtain ⟨same, after, most⟩ := count?_follows flags.verbose behind
  unfold greatest?
  simp only [← closes, same]
  split_ifs
  · exact closeCount?_follows behind
  · refine .bind_same fun most => ?_
    split_ifs
    · exact (closeCount?_follows after).widen (by omega)
    · exact .none

theorem closeCount?_eq_none {least : Nat} {most : Option Nat} (isOpen : cs.head? ≠ some '\x7d') :
    closeCount? flags least most cs = none :=
  if_neg isOpen

theorem counted?_eq (flags : Flags) (cs : List Char) :
    counted? flags cs =
      let count := count? flags.verbose (skip flags.verbose cs)
      count.1.bind fun least =>
        if count.2.head? = some ',' then greatest? flags least (skip flags.verbose count.2.tail)
        else closeCount? flags least (some least) count.2 := by
  unfold counted?
  generalize count? flags.verbose (skip flags.verbose cs) = count
  obtain ⟨n, left⟩ := count
  dsimp only
  split
  · next same =>
    cases same
    rfl
  · next same =>
    cases same
    rfl
  · next least rest same =>
    cases same
    have comma : (',' :: rest).head? = some ',' := rfl
    rw [Option.bind_some, if_pos comma, List.tail_cons]
    generalize skip flags.verbose rest = rest
    unfold greatest?
    split
    · rfl
    · next other =>
      rw [if_neg (head?_ne_some other)]
      generalize count? flags.verbose rest = count
      obtain ⟨n, left⟩ := count
      split
      · next same =>
        cases same
        rfl
      · next unclosed =>
        cases n with
        | none => rfl
        | some most =>
          have isOpen : left.head? ≠ some '\x7d' :=
            head?_ne_some fun tail same => unclosed most tail (by rw [same])
          rw [Option.bind_some, closeCount?_eq_none isOpen, ite_self]
  · next _ unclosed noComma =>
    cases n with
    | none => rfl
    | some least =>
      have isOpen : left.head? ≠ some '\x7d' :=
        head?_ne_some fun tail same => unclosed least tail (by rw [same])
      have plain : left.head? ≠ some ',' :=
        head?_ne_some fun tail same => noComma least tail (by rw [same])
      rw [Option.bind_some, if_neg plain, closeCount?_eq_none isOpen]

theorem counted?_follows (behind : Behind cs cs') :
    Follows (Agree (cs.length + 1)) Never (counted? flags cs) (counted? flags cs') := by
  obtain ⟨same, after, most⟩ := count?_follows flags.verbose (behind.skip flags.verbose)
  have mostSkip := length_skip_le flags.verbose cs
  rw [counted?_eq, counted?_eq]
  generalize count? flags.verbose (skip flags.verbose cs) = count at same after most
  generalize count? flags.verbose (skip flags.verbose cs') = count' at same after
  obtain ⟨n, left⟩ := count
  obtain ⟨_, left'⟩ := count'
  obtain rfl : n = _ := same
  have comma := after.head?_iff (c := ',') (by decide)
  dsimp only at after most comma ⊢
  refine .bind_same fun least => ?_
  simp only [← comma]
  split_ifs with isComma
  · obtain ⟨left, rfl⟩ := List.head?_eq_some_iff.mp isComma
    obtain ⟨left', rfl, inner⟩ := after.of_cons
    have shorter := length_skip_le flags.verbose left
    rw [List.length_cons] at most
    exact (greatest?_follows (inner.skip flags.verbose)).widen (by omega)
  · exact (closeCount?_follows after).widen (by omega)

def marks : List Char := ['(', ')', '|', '[', '?', '*', '+', '\x7b', '\\', '.', '^', '$']

theorem token?_literal (plain : c ∉ marks) :
    token? flags (c :: cs) =
      (literal? flags c.toNat false).map fun r => (.piece { regex := r }, cs) := by
  simp only [marks, List.mem_cons, List.not_mem_nil, or_false, not_or] at plain
  unfold token?
  simp [plain]

def escapeToken? (flags : Flags) (e : Escape) : Option Token :=
  match e with
  | .literal n isByte => (literal? flags n isByte).map fun r => .piece { regex := r }
  | .look l => some (.piece { regex := .look l })
  | .set s => some (.piece { regex := .set s })

theorem token?_escape (cs : List Char) :
    token? flags ('\\' :: cs) =
      (escape? flags cs).bind fun x => (escapeToken? flags x.1).map fun t => (t, x.2) := by
  change (escape? flags cs).bind _ = _
  congr 1
  funext x
  obtain ⟨e, tail⟩ := x
  cases e with
  | literal n isByte => simp [escapeToken?, Function.comp_def]
  | look l => rfl
  | set s => rfl

theorem exists_piece_of_escapeToken? {e : Escape} {t : Token}
    (isToken : escapeToken? flags e = some t) : ∃ p, t = .piece p := by
  cases e with
  | literal n isByte =>
    obtain ⟨r, -, rfl⟩ := Option.map_eq_some_iff.mp isToken
    exact ⟨_, rfl⟩
  | look l =>
    obtain rfl := Option.some.inj isToken
    exact ⟨_, rfl⟩
  | set s =>
    obtain rfl := Option.some.inj isToken
    exact ⟨_, rfl⟩

theorem escapeToken_follows (inner : Behind cs cs') :
    Follows (Agree (cs.length + 1)) (StuckToken flags) (token? flags ('\\' :: cs))
      (token? flags ('\\' :: cs')) := by
  rw [token?_escape, token?_escape]
  refine (escape?_follows inner).bind ?_ ?_
  · rintro ⟨e, tail⟩ ⟨_, tail'⟩ ⟨same, behind, shorter⟩
    obtain rfl : e = _ := same
    exact .map_same fun t => ⟨rfl, behind, shorter⟩
  · rintro ⟨e, tail⟩ stuck z reads
    obtain ⟨t, isToken, rfl⟩ := Option.map_eq_some_iff.mp reads
    have isPiece := exists_piece_of_escapeToken? isToken
    rcases stuck with isEnd | ⟨-, isBrace⟩
    · exact .inl ⟨.inl isPiece, isEnd⟩
    · exact .inr ⟨isPiece, isBrace⟩

theorem token?_follows (flags : Flags) (behind : Behind (c :: cs) (c :: cs')) :
    Follows (Agree (cs.length + 1)) (StuckToken flags) (token? flags (c :: cs))
      (token? flags (c :: cs')) := by
  obtain ⟨_, same, inner⟩ := behind.of_cons
  cases same
  have whole : cs.length < cs.length + 1 := Nat.lt_succ_self _
  by_cases plain : c ∈ marks
  · simp only [marks, List.mem_cons, List.not_mem_nil, or_false] at plain
    have lazy (t : Token) : Follows (Agree (cs.length + 1)) (StuckToken flags)
        (some (t, dropLazy cs)) (some (t, dropLazy cs')) :=
      .some ⟨rfl, inner.dropLazy, Nat.lt_succ_of_le (length_dropLazy_le cs)⟩
    have alone (t : Token) : Follows (Agree (cs.length + 1)) (StuckToken flags)
        (some (t, cs)) (some (t, cs')) := .some ⟨rfl, inner, whole⟩
    rcases plain with rfl | rfl | rfl | rfl | rfl | rfl | rfl | rfl | rfl | rfl | rfl | rfl
    · exact group?_follows inner
    · exact alone .closing
    · exact alone .bar
    · refine (bracketed?_follows inner).map ?_ fun y stuck => stuck.elim
      rintro ⟨p, tail⟩ ⟨_, tail'⟩ ⟨same, behind, shorter⟩
      obtain rfl : p = _ := same
      exact ⟨rfl, behind, shorter⟩
    · exact lazy (.repetition 0 (some 1))
    · exact lazy (.repetition 0 none)
    · exact lazy (.repetition 1 none)
    · exact (counted?_follows inner).of_never
    · exact escapeToken_follows inner
    · exact .map_same fun r => ⟨rfl, inner, whole⟩
    · exact alone (.piece { regex := .look (caret flags) })
    · exact alone (.piece { regex := .look (dollar flags) })
  · rw [token?_literal plain, token?_literal plain]
    exact .map_same fun r => ⟨rfl, inner, whole⟩

end ApiContract.Regex

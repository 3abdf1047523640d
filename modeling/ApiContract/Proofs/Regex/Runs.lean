import ApiContract.Proofs.Regex.Matching
import ApiContract.Proofs.Regex.Tokens
import ApiContract.Regex.Parser
import Mathlib.Logic.Relation

/-!
Reading a pattern token by token.

Shifting all tokens of a text is a run of single steps, and the fuel for it is enough because each
token takes at least one character. Every step keeps the pieces of a state well formed.
-/

namespace ApiContract.Regex

open Relation

variable {c : Char} {cs rest tail : List Char} {flags : Flags} {fuel : Nat} {s s' : ParseState}
  {t : Token}

/-- A state of reading with the text that is left. -/
abbrev Place := ParseState × List Char

/-- Reading takes in one token. -/
inductive Step : Place → Place → Prop
  | intro {s s' : ParseState} {cs rest tail : List Char} {c : Char} {t : Token} :
      skip s.flags.verbose cs = c :: rest → token? s.flags (c :: rest) = some (t, tail) →
      s.shift? t = some s' → Step (s, cs) (s', tail)

theorem length_of_token? (reads : token? flags (c :: cs) = some (t, rest)) :
    rest.length ≤ cs.length := by
  have follows := token?_follows flags (.shown (c :: cs))
  rw [reads] at follows
  generalize token? flags (c :: (cs ++ ending)) = other at follows
  cases follows with
  | some agree => exact Nat.le_of_lt_succ agree.shorter

theorem shiftAll?_finished (used : skip s.flags.verbose cs = []) :
    shiftAll? (fuel + 1) s cs = some s := by
  rw [shiftAll?, used]

theorem shiftAll?_succ (left : skip s.flags.verbose cs = c :: rest) :
    shiftAll? (fuel + 1) s cs =
      (token? s.flags (c :: rest)).bind fun x =>
        (s.shift? x.1).bind fun s => shiftAll? fuel s x.2 := by
  rw [shiftAll?, left]

/-- More fuel than characters makes no difference. -/
theorem shiftAll?_eq {fuel' : Nat} (enough : cs.length < fuel) (enough' : cs.length < fuel') :
    shiftAll? fuel s cs = shiftAll? fuel' s cs := by
  induction fuel generalizing s cs fuel' with
  | zero => cases enough
  | succ fuel ih =>
    obtain ⟨fuel', rfl⟩ := Nat.exists_eq_add_of_le' (Nat.zero_lt_of_lt enough')
    have most := length_skip_le s.flags.verbose cs
    cases left : skip s.flags.verbose cs with
    | nil => rw [shiftAll?_finished left, shiftAll?_finished left]
    | cons c rest =>
      rw [left, List.length_cons] at most
      rw [shiftAll?_succ left, shiftAll?_succ left]
      cases reads : token? s.flags (c :: rest) with
      | none => rfl
      | some x =>
        have shorter := length_of_token? reads
        rw [Option.bind_some, Option.bind_some]
        congr 1
        funext s
        exact ih (by omega) (by omega)

def run? (p : Place) : Option ParseState := shiftAll? (p.2.length + 1) p.1 p.2

theorem run?_finished (used : skip s.flags.verbose cs = []) : run? (s, cs) = some s :=
  shiftAll?_finished used

theorem run?_eq (left : skip s.flags.verbose cs = c :: rest) :
    run? (s, cs) =
      (token? s.flags (c :: rest)).bind fun x => (s.shift? x.1).bind fun s => run? (s, x.2) := by
  have most := length_skip_le s.flags.verbose cs
  rw [left, List.length_cons] at most
  rw [run?, shiftAll?_succ left]
  cases reads : token? s.flags (c :: rest) with
  | none => rfl
  | some x =>
    have shorter := length_of_token? reads
    rw [Option.bind_some, Option.bind_some]
    congr 1
    funext s
    exact shiftAll?_eq (Nat.lt_of_le_of_lt shorter most) (Nat.lt_succ_self _)

theorem run?_of_step {p q : Place} (step : Step p q) : run? p = run? q := by
  cases step with
  | intro left reads shifts => rw [run?_eq left, reads, Option.bind_some, shifts, Option.bind_some]

theorem run?_of_steps {p q : Place} (steps : ReflTransGen Step p q) : run? p = run? q := by
  induction steps with
  | refl => rfl
  | tail _ step ih => rw [ih, run?_of_step step]

theorem exists_steps_of_run? {start : ParseState} {cs : List Char}
    (runs : run? (start, cs) = some s) :
    ∃ rest, ReflTransGen Step (start, cs) (s, rest) ∧ skip s.flags.verbose rest = [] := by
  have most := length_skip_le start.flags.verbose cs
  cases left : skip start.flags.verbose cs with
  | nil =>
    rw [run?_finished left] at runs
    obtain rfl := Option.some.inj runs
    exact ⟨cs, .refl, left⟩
  | cons c rest =>
    rw [left, List.length_cons] at most
    rw [run?_eq left] at runs
    obtain ⟨⟨t, tail⟩, reads, runs⟩ := Option.bind_eq_some_iff.mp runs
    obtain ⟨next, shifts, runs⟩ := Option.bind_eq_some_iff.mp runs
    have shorter : tail.length < cs.length := Nat.lt_of_le_of_lt (length_of_token? reads) most
    obtain ⟨last, steps, used⟩ := exists_steps_of_run? runs
    exact ⟨last, .head (.intro left reads shifts) steps, used⟩
termination_by cs.length

theorem run?_eq_some_iff {p : Place} :
    run? p = some s ↔ ∃ rest, ReflTransGen Step p (s, rest) ∧ skip s.flags.verbose rest = [] := by
  constructor
  · exact exists_steps_of_run?
  · rintro ⟨rest, steps, used⟩
    rw [run?_of_steps steps, run?_finished used]

/-- What the state stands for when all groups are closed. -/
def ParseState.close? (s : ParseState) : Option Piece :=
  if s.enclosing.isEmpty then some s.frame.close else none

/-- A pattern as a whole, before its size is looked at. -/
def read? (source : String) : Option Piece :=
  (run? ({}, source.toList)).bind ParseState.close?

/-- A pattern is valid when it can be read and is neither nested nor unfolded too far. -/
theorem ofPattern?_eq_some_iff {source : String} {r : Regex} :
    ofPattern? source = some r ↔
      ∃ p, read? source = some p ∧ p.depth ≤ nestingLimit ∧ unfolded p.regex ≤ unfoldingLimit ∧
        p.regex = r := by
  unfold ofPattern? read? run?
  dsimp only
  cases shiftAll? (source.toList.length + 1) {} source.toList with
  | none => simp
  | some s =>
    simp only [Option.bind_some, ParseState.close?]
    cases s.enclosing with
    | nil => simp [and_assoc]
    | cons => simp

def Frame.Counted (f : Frame) : Prop :=
  ∀ p, p ∈ f.pieces ∨ p ∈ f.alternatives → p.regex.Counted

theorem counted_foldl {join : Regex → Regex → Regex} {pieces : List Piece} {last : Regex}
    (joins : ∀ r s, r.Counted → s.Counted → (join r s).Counted)
    (counted : ∀ p ∈ pieces, p.regex.Counted) (countedLast : last.Counted) :
    (pieces.foldl (fun r p => join p.regex r) last).Counted := by
  induction pieces generalizing last with
  | nil => exact countedLast
  | cons p pieces ih =>
    obtain ⟨first, later⟩ := List.forall_mem_cons.mp counted
    exact ih later (joins _ _ first countedLast)

theorem counted_concat {pieces : List Piece} (counted : ∀ p ∈ pieces, p.regex.Counted) :
    (concat pieces).regex.Counted := by
  unfold concat
  split
  · trivial
  · next p => exact counted p List.mem_cons_self
  · obtain ⟨last, before⟩ := List.forall_mem_cons.mp counted
    exact counted_foldl (fun r s first second => ⟨first, second⟩) before last

theorem Frame.Counted.close {f : Frame} (counted : f.Counted) : f.close.regex.Counted := by
  have last : (concat f.pieces).regex.Counted :=
    counted_concat fun p isPiece => counted p (.inl isPiece)
  unfold Frame.close
  split
  · exact last
  · refine counted_foldl (fun r s first second => ⟨first, second⟩) ?_ last
    exact fun p isPiece => counted p (.inr isPiece)

/-- What a token brings along: well formed pieces and counts, and a parenthesis where it closes. -/
def Token.Sound (c : Char) : Token → Prop
  | .piece p => p.regex.Counted
  | .setFlags _ => True
  | .opening _ _ => True
  | .closing => c = ')'
  | .bar => True
  | .repetition least most => ∀ bound ∈ most, least ≤ bound

theorem counted_of_literal? {n : Nat} {isByte : Bool} {r : Regex}
    (isLiteral : literal? flags n isByte = some r) : r.Counted := by
  unfold literal? at isLiteral
  split_ifs at isLiteral <;>
  · obtain rfl := Option.some.inj isLiteral
    trivial

theorem sound_of_namedGroup? (reads : namedGroup? flags cs = some (t, rest)) : t.Sound c := by
  obtain ⟨x, -, same⟩ := Option.map_eq_some_iff.mp reads
  cases same
  trivial

theorem sound_of_flagGroup? (reads : flagGroup? flags cs = some (t, rest)) : t.Sound c := by
  obtain ⟨x, -, reads⟩ := Option.bind_eq_some_iff.mp reads
  split_ifs at reads <;>
  · cases reads
    trivial

theorem sound_of_group? (reads : group? flags cs = some (t, rest)) : t.Sound c := by
  by_cases marked : (skip flags.verbose cs).head? = some '?'
  · obtain ⟨inner, isInner⟩ := List.head?_eq_some_iff.mp marked
    rw [group?_marked isInner, markedGroup?] at reads
    split_ifs at reads
    · exact sound_of_namedGroup? reads
    · exact sound_of_namedGroup? reads
    · exact sound_of_flagGroup? reads
  · rw [group?_plain marked] at reads
    cases reads
    trivial

theorem sound_of_closeCount? {least : Nat} {most : Option Nat}
    (inOrder : ∀ bound ∈ most, least ≤ bound)
    (reads : closeCount? flags least most cs = some (t, rest)) : t.Sound c := by
  unfold closeCount? at reads
  split_ifs at reads
  cases reads
  exact inOrder

theorem sound_of_counted? (reads : counted? flags cs = some (t, rest)) : t.Sound c := by
  rw [counted?_eq] at reads
  obtain ⟨least, -, reads⟩ := Option.bind_eq_some_iff.mp reads
  split_ifs at reads
  · unfold greatest? at reads
    split_ifs at reads
    · refine sound_of_closeCount? ?_ reads
      rintro _ ⟨⟩
    · obtain ⟨most, -, reads⟩ := Option.bind_eq_some_iff.mp reads
      split_ifs at reads with inOrder
      refine sound_of_closeCount? ?_ reads
      rintro _ ⟨⟩
      exact inOrder
  · refine sound_of_closeCount? ?_ reads
    rintro _ ⟨⟩
    exact Nat.le_refl least

theorem sound_of_escapeToken? {e : Escape} (isToken : escapeToken? flags e = some t) :
    t.Sound c := by
  cases e with
  | literal n isByte =>
    obtain ⟨r, isLiteral, rfl⟩ := Option.map_eq_some_iff.mp isToken
    exact counted_of_literal? isLiteral
  | look l =>
    cases isToken
    trivial
  | set s =>
    cases isToken
    trivial

theorem counted_of_dot? {r : Regex} (isDot : dot? flags = some r) : r.Counted := by
  unfold dot? at isDot
  split_ifs at isDot <;>
  · obtain rfl := Option.some.inj isDot
    trivial

theorem sound_of_token? (reads : token? flags (c :: cs) = some (t, rest)) : t.Sound c := by
  by_cases plain : c ∈ marks
  · simp only [marks, List.mem_cons, List.not_mem_nil, or_false] at plain
    rcases plain with rfl | rfl | rfl | rfl | rfl | rfl | rfl | rfl | rfl | rfl | rfl | rfl
    · exact sound_of_group? reads
    · cases reads
      rfl
    · cases reads
      trivial
    · obtain ⟨p, -, same⟩ := Option.map_eq_some_iff.mp reads
      cases same
      trivial
    · cases reads
      rintro _ ⟨⟩
      exact Nat.zero_le 1
    · cases reads
      rintro _ ⟨⟩
    · cases reads
      rintro _ ⟨⟩
    · exact sound_of_counted? reads
    · rw [token?_escape] at reads
      obtain ⟨x, -, reads⟩ := Option.bind_eq_some_iff.mp reads
      obtain ⟨t, isToken, same⟩ := Option.map_eq_some_iff.mp reads
      cases same
      exact sound_of_escapeToken? isToken
    · obtain ⟨r, isDot, same⟩ := Option.map_eq_some_iff.mp reads
      cases same
      exact counted_of_dot? isDot
    · cases reads
      trivial
    · cases reads
      trivial
  · rw [token?_literal plain] at reads
    obtain ⟨r, isLiteral, same⟩ := Option.map_eq_some_iff.mp reads
    cases same
    exact counted_of_literal? isLiteral

/-- The outermost of the open frames returns to the flags that are set when nothing is. -/
def Grounded (f : Frame) : List Frame → Prop
  | [] => f.outside = {}
  | outer :: rest => Grounded outer rest

theorem Grounded.replace {f g : Frame} {rest : List Frame} (grounded : Grounded f rest)
    (same : g.outside = f.outside) : Grounded g rest := by
  cases rest with
  | nil => exact same.trans grounded
  | cons => exact grounded

structure ParseState.Sound (s : ParseState) : Prop where
  counted : ∀ f ∈ s.frame :: s.enclosing, f.Counted
  grounded : Grounded s.frame s.enclosing

theorem sound_start : ({} : ParseState).Sound where
  counted := by
    rintro f isFrame p (isPiece | isPiece)
    · obtain rfl := List.mem_singleton.mp isFrame
      cases isPiece
    · obtain rfl := List.mem_singleton.mp isFrame
      cases isPiece
  grounded := rfl

theorem Frame.Counted.push {f : Frame} {p : Piece} {pieces : List Piece} (counted : f.Counted)
    (first : p.regex.Counted) (later : ∀ q ∈ pieces, q ∈ f.pieces) :
    ({ f with pieces := p :: pieces } : Frame).Counted := by
  rintro q (isPiece | isPiece)
  · rcases List.mem_cons.mp isPiece with rfl | isPiece
    · exact first
    · exact counted q (.inl (later q isPiece))
  · exact counted q (.inr isPiece)

theorem ParseState.Sound.push {flags : Flags} {p : Piece} {pieces : List Piece} (sound : s.Sound)
    (first : p.regex.Counted) (later : ∀ q ∈ pieces, q ∈ s.frame.pieces) :
    ({ s with flags, frame := { s.frame with pieces := p :: pieces } } : ParseState).Sound where
  counted := by
    obtain ⟨frame, enclosing⟩ := List.forall_mem_cons.mp sound.counted
    exact List.forall_mem_cons.mpr ⟨frame.push first later, enclosing⟩
  grounded := sound.grounded.replace rfl

theorem ParseState.Sound.opened {inside : Flags} {names : List String} (sound : s.Sound) :
    ParseState.Sound
      { s with
        flags := inside, frame := { outside := s.flags }, enclosing := s.frame :: s.enclosing,
        names } where
  counted := by
    refine List.forall_mem_cons.mpr ⟨?_, sound.counted⟩
    rintro p (isPiece | isPiece) <;> cases isPiece
  grounded := sound.grounded

theorem sound_of_shift? (sound : s.Sound) (isSound : t.Sound c) (shifts : s.shift? t = some s') :
    s'.Sound := by
  obtain ⟨frame, enclosing⟩ := List.forall_mem_cons.mp sound.counted
  cases t with
  | piece p =>
    cases shifts
    exact sound.push isSound fun q => id
  | setFlags flags =>
    cases shifts
    exact sound.push (p := { regex := .empty, repeatable := false }) trivial fun q => id
  | opening inside name =>
    cases name with
    | none =>
      cases shifts
      exact sound.opened
    | some name =>
      unfold ParseState.shift? at shifts
      dsimp only at shifts
      split_ifs at shifts
      cases shifts
      exact sound.opened
  | closing =>
    unfold ParseState.shift? at shifts
    dsimp only at shifts
    have grounded := sound.grounded
    cases outside : s.enclosing with
    | nil =>
      rw [outside] at shifts
      cases shifts
    | cons outer rest =>
      rw [outside] at shifts enclosing grounded
      obtain ⟨countedOuter, countedRest⟩ := List.forall_mem_cons.mp enclosing
      cases shifts
      have group : s.frame.close.regex.Counted := frame.close
      exact ⟨List.forall_mem_cons.mpr ⟨countedOuter.push group fun q => id, countedRest⟩,
        Grounded.replace (f := outer) grounded rfl⟩
  | bar =>
    cases shifts
    refine ⟨List.forall_mem_cons.mpr ⟨?_, enclosing⟩, sound.grounded.replace rfl⟩
    rintro p (isPiece | isPiece)
    · cases isPiece
    · rcases List.mem_cons.mp isPiece with rfl | isPiece
      · exact counted_concat fun q isPart => frame q (.inl isPart)
      · exact frame p (.inr isPiece)
  | repetition least most =>
    unfold ParseState.shift? at shifts
    dsimp only at shifts
    cases pieces : s.frame.pieces with
    | nil =>
      rw [pieces] at shifts
      cases shifts
    | cons p before =>
      rw [pieces] at shifts
      dsimp only at shifts
      split_ifs at shifts
      cases shifts
      have body : p.regex.Counted := frame p (.inl (by rw [pieces]; exact List.mem_cons_self))
      refine sound.push (p := { regex := .rep p.regex least most, depth := p.depth + 1 })
        ⟨body, isSound⟩ fun q isPart => ?_
      rw [pieces]
      exact List.mem_cons_of_mem p isPart

theorem sound_of_steps {p q : Place} (steps : ReflTransGen Step p q) (sound : p.1.Sound) :
    q.1.Sound := by
  induction steps with
  | refl => exact sound
  | tail _ step ih =>
    cases step with
    | intro left reads shifts => exact sound_of_shift? ih (sound_of_token? reads) shifts

end ApiContract.Regex

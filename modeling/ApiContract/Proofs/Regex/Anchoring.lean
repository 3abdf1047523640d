import ApiContract.Proofs.Regex.Runs
import ApiContract.Schema.Pattern

/-!
Patterns between the two ends of a text.

Anchoring puts a source into a group. Reading it there takes the same steps as reading it alone,
with the group open on the outside, until the source ends or closes the group itself.
-/

namespace ApiContract.Regex

open Relation

variable {outer : Frame} {c : Char} {cs cs' rest rest' tail : List Char} {s s' : ParseState}
  {t : Token} {source : String} {piece : Piece}

/-- The state with one more group open on the outside. -/
def ParseState.inside (s : ParseState) (outer : Frame) : ParseState :=
  { s with enclosing := s.enclosing ++ [outer] }

theorem enclosing_inside_ne_nil (s : ParseState) (outer : Frame) :
    (s.inside outer).enclosing ≠ [] :=
  List.append_ne_nil_of_right_ne_nil _ (List.cons_ne_nil _ _)

/-- A token is shifted inside a group as it is alone, unless it closes the group. -/
theorem shift?_inside (held : t = .closing → s.enclosing ≠ []) :
    (s.inside outer).shift? t = (s.shift? t).map (ParseState.inside · outer) := by
  cases t with
  | piece p => rfl
  | setFlags flags => rfl
  | opening inside name =>
    cases name with
    | none => rfl
    | some name =>
      unfold ParseState.shift? ParseState.inside
      dsimp only
      split_ifs <;> rfl
  | closing =>
    unfold ParseState.shift? ParseState.inside
    cases outside : s.enclosing with
    | nil => exact absurd outside (held rfl)
    | cons f rest => rfl
  | bar => rfl
  | repetition least most =>
    unfold ParseState.shift? ParseState.inside
    cases pieces : s.frame.pieces with
    | nil => simp
    | cons p before =>
      dsimp only
      split_ifs <;> rfl

theorem enclosing_ne_nil_of_shift? (shifts : s.shift? .closing = some s') : s.enclosing ≠ [] := by
  intro none
  unfold ParseState.shift? at shifts
  rw [none] at shifts
  cases shifts

/-- A step alone is taken with the ending behind the text too, and inside a group. -/
theorem Step.behind (outer : Frame) (step : Step (s, cs) (s', tail)) (behind : Behind cs cs') :
    ∃ tail', Behind tail tail' ∧ Step (s, cs') (s', tail') ∧
      Step (s.inside outer, cs') (s'.inside outer, tail') := by
  cases step with
  | @intro _ _ _ rest _ c t left reads shifts =>
    have after := behind.skip s.flags.verbose
    rw [left] at after
    obtain ⟨rest', left', -⟩ := after.of_cons
    rw [left'] at after
    have follows := token?_follows s.flags after
    rw [reads] at follows
    cases reads' : token? s.flags (c :: rest') with
    | none =>
      rw [reads'] at follows
      cases follows
    | some y =>
      rw [reads'] at follows
      obtain ⟨t', tail'⟩ := y
      cases follows with
      | some agree =>
        obtain ⟨same, behindTail, -⟩ := agree
        obtain rfl : t = t' := same
        have shiftsInside : (s.inside outer).shift? t = some (s'.inside outer) := by
          rw [shift?_inside, shifts, Option.map_some]
          rintro rfl
          exact enclosing_ne_nil_of_shift? shifts
        exact ⟨tail', behindTail, .intro left' reads' shifts, .intro left' reads' shiftsInside⟩

theorem steps_behind (outer : Frame) (steps : ReflTransGen Step (s, cs) (s', rest))
    (behind : Behind cs cs') :
    ∃ rest', Behind rest rest' ∧ ReflTransGen Step (s, cs') (s', rest') ∧
      ReflTransGen Step (s.inside outer, cs') (s'.inside outer, rest') := by
  generalize isEnd : (s', rest) = q at steps
  induction steps generalizing s' rest with
  | refl =>
    cases isEnd
    exact ⟨cs', behind, .refl, .refl⟩
  | @tail p q _ step ih =>
    cases isEnd
    obtain ⟨middle, left⟩ := p
    obtain ⟨left', behindLeft, alone, inside⟩ := ih rfl
    obtain ⟨tail', behindTail, stepAlone, stepInside⟩ := step.behind outer behindLeft
    exact ⟨tail', behindTail, alone.tail stepAlone, inside.tail stepInside⟩

/-- Reading can be finished with no group open. -/
def Complete (p : Place) : Prop :=
  ∃ s rest, ReflTransGen Step p (s, rest) ∧ skip s.flags.verbose rest = [] ∧ s.enclosing = []

/-- Reading comes to a closing parenthesis while no group is open. -/
def ClosesGroup (p : Place) : Prop :=
  ∃ s rest tail, ReflTransGen Step p (s, rest) ∧ s.enclosing = [] ∧
    skip s.flags.verbose rest = ')' :: tail

theorem Complete.head {p q : Place} (step : Step p q) (complete : Complete q) : Complete p := by
  obtain ⟨s, rest, steps, used, closed⟩ := complete
  exact ⟨s, rest, .head step steps, used, closed⟩

theorem ClosesGroup.head {p q : Place} (step : Step p q) (closes : ClosesGroup q) :
    ClosesGroup p := by
  obtain ⟨s, rest, tail, steps, outermost, isClosing⟩ := closes
  exact ⟨s, rest, tail, .head step steps, outermost, isClosing⟩

theorem counted?_ending {flags : Flags} (inner : skip flags.verbose cs = ending) :
    counted? flags cs = none := by
  have noCount : (count? flags.verbose ending).1 = none := by
    cases flags.verbose <;> decide
  rw [counted?_eq, inner]
  dsimp only
  rw [noCount, Option.bind_none]

theorem Complete.enclosing_eq_nil (complete : Complete (s, cs))
    (used : skip s.flags.verbose cs = []) : s.enclosing = [] := by
  obtain ⟨e, rest, steps, -, closed⟩ := complete
  rcases ReflTransGen.cases_head steps with same | ⟨q, step, -⟩
  · cases same
    exact closed
  · cases step with
    | intro left => cases used.symm.trans left

theorem Complete.exists_token (complete : Complete (s, cs))
    (left : skip s.flags.verbose cs = c :: rest) :
    ∃ t tail next, token? s.flags (c :: rest) = some (t, tail) ∧ s.shift? t = some next ∧
      Complete (next, tail) := by
  obtain ⟨e, last, steps, used, closed⟩ := complete
  rcases ReflTransGen.cases_head steps with same | ⟨q, step, later⟩
  · cases same
    cases used.symm.trans left
  · cases step with
    | intro isLeft reads shifts =>
      cases left.symm.trans isLeft
      exact ⟨_, _, _, reads, shifts, e, last, later, used, closed⟩

theorem not_complete_dollar (isOpen : s.enclosing ≠ []) : ¬Complete (s, ['$']) := by
  intro complete
  obtain ⟨t, tail, next, reads, shifts, later⟩ :=
    complete.exists_token (skip_cons rfl (by decide))
  cases reads
  cases shifts
  exact isOpen (later.enclosing_eq_nil skip_nil)

/-- Where a token is read only with the ending, reading is not completed inside a group. -/
theorem not_complete_of_stuck {flags : Flags} (stuck : StuckToken flags (t, rest))
    (force : s.flags = flags) (isOpen : s.enclosing ≠ []) (shifts : s.shift? t = some s') :
    ¬Complete (s', rest) := by
  rcases stuck with ⟨kind, isEnd⟩ | ⟨⟨p, isPiece⟩, braced, isBrace, inner⟩
  · obtain rfl : rest = ['$'] := isEnd
    apply not_complete_dollar
    rcases kind with ⟨p, isPiece⟩ | ⟨inside, isFlags⟩
    · obtain rfl : t = .piece p := isPiece
      cases shifts
      exact isOpen
    · obtain rfl : t = .setFlags inside := isFlags
      cases shifts
      exact isOpen
  · obtain rfl : t = .piece p := isPiece
    obtain rfl : rest = '\x7b' :: braced := isBrace
    cases shifts
    intro complete
    obtain ⟨t, tail, next, reads, -, -⟩ :=
      complete.exists_token (skip_cons rfl (by decide))
    have none : counted? s.flags braced = none := counted?_ending (by rw [force]; exact inner)
    cases none.symm.trans reads

/-- A step that is taken inside a group with the ending behind the text is taken alone, unless it
closes the group or nothing is left to read. -/
theorem step_of_inside {x : ParseState} (step : Step (s.inside outer, cs') (x, tail))
    (complete : Complete (x, tail)) (behind : Behind cs cs') :
    Complete (s, cs) ∨ ClosesGroup (s, cs) ∨
      ∃ next rest, Step (s, cs) (next, rest) ∧ x = next.inside outer ∧ Behind rest tail := by
  have after := behind.skip s.flags.verbose
  cases step with
  | @intro _ _ _ rest' _ c t left' reads' shifts' =>
    change skip s.flags.verbose cs' = c :: rest' at left'
    change token? s.flags (c :: rest') = some (t, tail) at reads'
    rw [left'] at after
    cases left : skip s.flags.verbose cs with
    | nil =>
      rw [left] at after
      rcases after.of_nil with isEnd | none
      · cases isEnd
        cases reads'
        by_cases outermost : s.enclosing = []
        · exact .inl ⟨s, cs, .refl, left, outermost⟩
        · rw [shift?_inside fun _ => outermost] at shifts'
          obtain ⟨next, -, rfl⟩ := Option.map_eq_some_iff.mp shifts'
          exact absurd complete (not_complete_dollar (enclosing_inside_ne_nil next outer))
      · cases none
    | cons d rest =>
      rw [left] at after
      obtain ⟨_, same, -⟩ := after.of_cons
      obtain rfl : c = d := (List.cons.inj same).1
      have follows := token?_follows s.flags after
      rw [reads'] at follows
      cases reads : token? s.flags (c :: rest) with
      | none =>
        rw [reads] at follows
        cases follows with
        | stuck isStuck =>
          have isOpen := enclosing_inside_ne_nil s outer
          exact absurd complete (not_complete_of_stuck (s := s.inside outer) isStuck rfl
            isOpen shifts')
      | some y =>
        rw [reads] at follows
        obtain ⟨t', rest⟩ := y
        cases follows with
        | some agree =>
          obtain ⟨same, behindTail, -⟩ := agree
          obtain rfl : t' = t := same
          by_cases held : t' = .closing → s.enclosing ≠ []
          · rw [shift?_inside held] at shifts'
            obtain ⟨next, shifts, rfl⟩ := Option.map_eq_some_iff.mp shifts'
            exact .inr (.inr ⟨next, rest, .intro left reads shifts, rfl, behindTail⟩)
          · obtain ⟨rfl, outermost⟩ := Classical.not_imp.mp held
            have isClosing : c = ')' := sound_of_token? reads
            exact .inr (.inl ⟨s, cs, _, .refl, not_not.mp outermost, by rw [left, isClosing]⟩)

/-- What is completed inside a group with the ending behind it is complete alone, unless it closes
the group itself. -/
theorem complete_or_closesGroup (complete : Complete (s.inside outer, cs'))
    (behind : Behind cs cs') : Complete (s, cs) ∨ ClosesGroup (s, cs) := by
  obtain ⟨e, last, steps, used, closed⟩ := complete
  generalize isStart : (s.inside outer, cs') = p at steps
  induction steps using ReflTransGen.head_induction_on generalizing s cs cs' with
  | refl =>
    cases isStart
    exact absurd closed (enclosing_inside_ne_nil s outer)
  | @head p q step later ih =>
    cases isStart
    obtain ⟨x, tail⟩ := q
    rcases step_of_inside step ⟨e, last, later, used, closed⟩ behind with whole | closes | taken
    · exact .inl whole
    · exact .inr closes
    · obtain ⟨next, rest, alone, rfl, behindTail⟩ := taken
      exact (ih behindTail rfl).imp (Complete.head alone) (ClosesGroup.head alone)

def anchor : Frame := { outside := {}, pieces := [{ regex := .look .start }] }

def Piece.betweenEnds (p : Piece) : Piece :=
  { regex := Regex.betweenEnds p.regex, depth := p.depth + 2 }

theorem toList_append_ending (source : String) :
    (source ++ ")$").toList = source.toList ++ ending := by
  rw [String.toList_append]
  rfl

theorem steps_anchored (source : String) :
    ReflTransGen Step ({}, (anchored source).toList)
      (({} : ParseState).inside anchor, source.toList ++ ending) := by
  have whole :
      (anchored source).toList = '^' :: '(' :: '?' :: ':' :: (source.toList ++ ending) := by
    rw [anchored, String.append_assoc, String.toList_append, toList_append_ending]
    rfl
  rw [whole]
  refine .head (.intro rfl rfl rfl) (.head (.intro rfl rfl rfl) ?_)
  exact .refl

/-- The frame around the group, with what the group holds and the last anchor behind it. -/
def closedFrame (p : Piece) : Frame :=
  { anchor with
    pieces := { regex := .look .finish } :: { regex := p.regex, depth := p.depth + 1 } ::
      anchor.pieces }

theorem close_closedFrame (p : Piece) : (closedFrame p).close = p.betweenEnds := by
  have depth : (([0, p.depth + 1, 0] : List Nat).foldl Nat.max 0) + 1 = p.depth + 2 := by
    simp
  change ({ regex := _, depth := _ } : Piece) = _
  rw [Piece.betweenEnds, ← depth]
  rfl

/-- The ending closes the group and puts the last anchor behind it. -/
theorem steps_ending (sound : s.Sound) (outermost : s.enclosing = [])
    (left : skip s.flags.verbose rest = ending) :
    ReflTransGen Step (s.inside anchor, rest)
      ({ s with flags := {}, frame := closedFrame s.frame.close, enclosing := [] }, []) := by
  have grounded : s.frame.outside = {} := by
    have grounded := sound.grounded
    rwa [outermost] at grounded
  let group : Piece := { regex := s.frame.close.regex, depth := s.frame.close.depth + 1 }
  let next : ParseState :=
    { s with
      flags := {}, frame := { anchor with pieces := group :: anchor.pieces }, enclosing := [] }
  have closes : (s.inside anchor).shift? .closing = some next := by
    unfold ParseState.shift? ParseState.inside
    rw [outermost]
    dsimp only [List.nil_append]
    rw [grounded]
  have first : Step (s.inside anchor, rest) (next, ['$']) := .intro left rfl closes
  exact .head first (.single (.intro rfl rfl rfl))

theorem read?_eq_some_iff :
    read? source = some piece ↔
      ∃ s rest, ReflTransGen Step ({}, source.toList) (s, rest) ∧ skip s.flags.verbose rest = [] ∧
        s.enclosing = [] ∧ s.frame.close = piece := by
  rw [read?, Option.bind_eq_some_iff]
  simp only [run?_eq_some_iff, ParseState.close?]
  constructor
  · rintro ⟨s, ⟨rest, steps, used⟩, closes⟩
    split_ifs at closes with outermost
    exact ⟨s, rest, steps, used, List.isEmpty_iff.mp outermost, Option.some.inj closes⟩
  · rintro ⟨s, rest, steps, used, outermost, rfl⟩
    exact ⟨s, ⟨rest, steps, used⟩, if_pos (List.isEmpty_iff.mpr outermost)⟩

theorem isSome_read?_iff : (read? source).isSome ↔ Complete ({}, source.toList) := by
  rw [Option.isSome_iff_exists]
  simp only [read?_eq_some_iff]
  constructor
  · rintro ⟨piece, s, rest, steps, used, outermost, -⟩
    exact ⟨s, rest, steps, used, outermost⟩
  · rintro ⟨s, rest, steps, used, outermost⟩
    exact ⟨_, s, rest, steps, used, outermost, rfl⟩

/-- A source that closes the group it stands in cannot be read alone. -/
theorem read?_eq_none_of_closesGroup (closes : ClosesGroup ({}, source.toList)) :
    read? source = none := by
  obtain ⟨s, rest, tail, steps, outermost, left⟩ := closes
  have shifts : s.shift? .closing = none := by
    unfold ParseState.shift?
    rw [outermost]
  rw [read?, run?_of_steps steps, run?_eq left]
  change Option.bind (Option.bind (some (Token.closing, tail)) _) _ = none
  rw [Option.bind_some, shifts, Option.bind_none, Option.bind_none]

theorem Complete.of_steps {p q : Place} (complete : Complete p) (steps : ReflTransGen Step p q) :
    Complete q := by
  obtain ⟨s, rest, toEnd, used, closed⟩ := complete
  have runs : run? p = some s := run?_eq_some_iff.mpr ⟨rest, toEnd, used⟩
  rw [run?_of_steps steps] at runs
  obtain ⟨rest', toEnd', used'⟩ := run?_eq_some_iff.mp runs
  exact ⟨s, rest', toEnd', used', closed⟩

theorem read?_of_anchored {whole : Piece} (isRead : read? (anchored source) = some whole) :
    (read? source).isSome ∨ ClosesGroup ({}, source.toList) := by
  have complete := isSome_read?_iff.mp (Option.isSome_iff_exists.mpr ⟨whole, isRead⟩)
  rw [isSome_read?_iff]
  exact complete_or_closesGroup (complete.of_steps (steps_anchored source)) (.shown _)

/-- A source that can be read is read between the two anchors, unless a comment at its end takes
the ending in. -/
theorem read?_anchored (isRead : read? source = some piece) :
    read? (source ++ ")$") = none ∧ read? (anchored source) = some piece.betweenEnds ∨
      (read? (source ++ ")$")).isSome ∧ read? (anchored source) = none := by
  obtain ⟨s, rest, steps, used, outermost, closes⟩ := read?_eq_some_iff.mp isRead
  have sound : s.Sound := sound_of_steps steps sound_start
  obtain ⟨rest', behind, alone, inside⟩ :=
    steps_behind anchor steps (.shown source.toList)
  have after := behind.skip s.flags.verbose
  rw [← toList_append_ending] at alone
  rw [used] at after
  rcases after.of_nil with isShown | isHidden
  · refine .inl ⟨read?_eq_none_of_closesGroup ⟨s, rest', _, alone, outermost, isShown⟩, ?_⟩
    have toEnd := inside.trans (steps_ending sound outermost isShown)
    refine read?_eq_some_iff.mpr ⟨_, [], (steps_anchored source).trans toEnd, rfl, rfl, ?_⟩
    rw [close_closedFrame, closes]
  · refine .inr ⟨isSome_read?_iff.mpr ⟨s, rest', alone, isHidden, outermost⟩, ?_⟩
    have isOpen : (s.inside anchor).enclosing.isEmpty = false := by
      rw [List.isEmpty_eq_false_iff]
      exact enclosing_inside_ne_nil s anchor
    have finished : run? (s.inside anchor, rest') = some (s.inside anchor) :=
      run?_finished isHidden
    rw [read?, run?_of_steps ((steps_anchored source).trans inside), finished, Option.bind_some,
      ParseState.close?, isOpen]
    rfl

theorem counted_of_read? (isRead : read? source = some piece) : piece.regex.Counted := by
  obtain ⟨s, rest, steps, -, -, rfl⟩ := read?_eq_some_iff.mp isRead
  have sound : s.Sound := sound_of_steps steps sound_start
  exact (sound.counted s.frame List.mem_cons_self).close

theorem unfolded_betweenEnds (r : Regex) : unfolded (betweenEnds r) = unfolded r + 2 := by
  simp only [betweenEnds, unfolded]
  omega

end ApiContract.Regex
